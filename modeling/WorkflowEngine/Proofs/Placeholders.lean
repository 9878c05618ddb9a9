import Mathlib.Data.List.Forall2
import Mathlib.Logic.ExistsUnique
import WorkflowEngine.Template

/-!
# The one reading of a template

What a template stands for is said without a scan, and the scan is shown to find it.

**Readings** (`Template.Reads`). A reading of a text is a template that spells the text
(`Template.source`), in which no pair of braces could have been taken earlier: in each literal
followed by its opening pair that pair is the first, in each path followed by its closing pair that
pair is the first, and the tail has no complete placeholder. Runs of three braces, an opening pair
inside a placeholder and a brace that touches a pair are decided by this.

**Filling in.** Texts are put in the places of the paths and nowhere else, so the braces in them
cannot open or close anything.

**Trees** (`Value.Rewritten`). A tree in which every string has been rewritten, and nothing else.

Main statement: `Bindings.resolve_by_reading`. Every text has one reading, the text of a template
in a context is that reading filled in, and in a tree every string is treated so.
-/

namespace WorkflowEngine

/-! ## The first pair -/

namespace Text

/-- In `front` followed by a doubled `c`, that pair is the first one. -/
def FirstAfter (c : Char) (front : List Char) : Prop :=
  ∀ before after, front ++ [c, c] = before ++ c :: c :: after → before = front

variable {c x : Char} {front text before after : List Char}

theorem firstAfter_nil : FirstAfter c [] := by
  intro before after h
  cases before with
  | nil => rfl
  | cons y before =>
    have hlength := congrArg List.length h
    simp only [List.nil_append, List.length_cons, List.length_nil, List.length_append] at hlength
    omega

/-- One more character in front starts no pair, and hides none. -/
theorem firstAfter_cons : FirstAfter c (x :: front) ↔
    ¬(x = c ∧ (front ++ [c, c]).head? = some c) ∧ FirstAfter c front := by
  constructor
  · intro h
    refine ⟨?_, ?_⟩
    · rintro ⟨rfl, hhead⟩
      obtain ⟨after, hafter⟩ := List.head?_eq_some_iff.1 hhead
      exact List.cons_ne_nil _ _ (h [] after (by simpa using hafter)).symm
    · intro before after heq
      exact List.tail_eq_of_cons_eq (h (x :: before) after (by simp [heq]))
  · rintro ⟨hx, h⟩ before after heq
    cases before with
    | nil =>
      obtain ⟨rfl, hrest⟩ := List.cons.inj heq
      exact absurd ⟨rfl, List.head?_eq_some_iff.2 ⟨after, hrest⟩⟩ hx
    | cons y before =>
      obtain ⟨rfl, hrest⟩ := List.cons.inj heq
      rw [h before after hrest]

theorem cutAtPair_cons (hx : ¬(x = c ∧ text.head? = some c)) :
    cutAtPair c (x :: text) = (cutAtPair c text).map fun p => (x :: p.1, p.2) := by
  cases text with
  | nil => rfl
  | cons y text =>
    rw [cutAtPair, if_neg]
    intro h
    exact hx ⟨h.1, by simp [h.2]⟩

/-- The cut is at the first pair, wherever a text has one. -/
theorem cutAtPair_append (h : FirstAfter c front) (after : List Char) :
    cutAtPair c (front ++ c :: c :: after) = some (front, after) := by
  induction front with
  | nil => simp [cutAtPair]
  | cons x front ih =>
    obtain ⟨hx, hfront⟩ := firstAfter_cons.1 h
    have hhead : (front ++ c :: c :: after).head? = (front ++ [c, c]).head? := by
      cases front <;> rfl
    rw [List.cons_append, cutAtPair_cons (by rwa [hhead]), ih hfront]
    rfl

theorem firstAfter_of_cutAtPair (h : cutAtPair c text = some (before, after)) :
    FirstAfter c before := by
  fun_induction cutAtPair c text generalizing before after with
  | case1 => simp at h
  | case2 => simp at h
  | case3 a b rest hab =>
    obtain ⟨rfl, rfl⟩ := Prod.mk.inj (Option.some.inj h)
    exact firstAfter_nil
  | case4 a b rest hab ih =>
    obtain ⟨p, hp, heq⟩ := Option.map_eq_some_iff.1 h
    obtain ⟨rfl, rfl⟩ := Prod.mk.inj heq
    refine firstAfter_cons.2 ⟨?_, ih hp⟩
    rintro ⟨rfl, hhead⟩
    -- what follows begins as the rest of the text does
    have hrest := eq_of_cutAtPair hp
    apply hab
    cases hfront : p.1 <;> simp_all

/-- What stands behind any pair stands behind the first. -/
theorem suffix_of_cutAtPair {rest : List Char} (h : cutAtPair c text = some (before, after))
    (heq : text = front ++ c :: c :: rest) : rest <:+ after := by
  fun_induction cutAtPair c text generalizing before after front with
  | case1 => simp at h
  | case2 => simp at h
  | case3 a b tail hab =>
    obtain ⟨rfl, rfl⟩ := Prod.mk.inj (Option.some.inj h)
    cases front with
    | nil => simp_all
    | cons x front =>
      cases front with
      | nil => exact ⟨[c], by simp_all⟩
      | cons y front => exact ⟨front ++ [c, c], by simp_all⟩
  | case4 a b tail hab ih =>
    obtain ⟨p, hp, hpair⟩ := Option.map_eq_some_iff.1 h
    obtain ⟨rfl, rfl⟩ := Prod.mk.inj hpair
    cases front with
    | nil => simp_all
    | cons x front => exact ih hp (List.tail_eq_of_cons_eq heq)

theorem cutAtPair_eq_none (h : cutAtPair c text = none) (before after : List Char) :
    text ≠ before ++ c :: c :: after := by
  rintro rfl
  induction before with
  | nil => simp [cutAtPair] at h
  | cons x before ih =>
    by_cases hx : x = c ∧ (before ++ c :: c :: after).head? = some c
    · obtain ⟨rest, hrest⟩ := List.head?_eq_some_iff.1 hx.2
      simp [hrest, hx.1, cutAtPair] at h
    · rw [List.cons_append, cutAtPair_cons hx] at h
      exact ih (Option.map_eq_none_iff.1 h)

end Text

/-! ## Readings -/

namespace Template

/-- The text that a template is a reading of. -/
def source (t : Template) : List Char :=
  t.pieces.flatMap (fun p => p.1 ++ '{' :: '{' :: p.2 ++ ['}', '}']) ++ t.tail

/-- Somewhere in the text an opening pair has a closing pair behind it. -/
def HasPlaceholder (text : List Char) : Prop :=
  ∃ before path after, text = before ++ '{' :: '{' :: path ++ '}' :: '}' :: after

/-- The template spells the text, and takes every pair of braces at the first place. -/
structure Reads (t : Template) (text : List Char) : Prop where
  spells : t.source = text
  opens : ∀ p ∈ t.pieces, Text.FirstAfter '{' p.1
  closes : ∀ p ∈ t.pieces, Text.FirstAfter '}' p.2
  unclosed : ¬ HasPlaceholder t.tail

variable {text before inner path after : List Char}

theorem ofChars_of_cut (hopen : Text.cutAtPair '{' text = some (before, inner))
    (hclose : Text.cutAtPair '}' inner = some (path, after)) :
    ofChars text = ⟨(before, path) :: (ofChars after).pieces, (ofChars after).tail⟩ := by
  rw [ofChars]
  split
  · simp_all
  · next before' inner' hopen' =>
    obtain ⟨rfl, rfl⟩ := Prod.mk.inj (Option.some.inj (hopen'.symm.trans hopen))
    split
    · simp_all
    · next path' after' hclose' =>
      obtain ⟨rfl, rfl⟩ := Prod.mk.inj (Option.some.inj (hclose'.symm.trans hclose))
      rfl

theorem ofChars_of_unclosed (h : ¬ HasPlaceholder text) : ofChars text = ⟨[], text⟩ := by
  rw [ofChars]
  split
  · rfl
  · next before inner hopen =>
    split
    · rfl
    · next path after hclose =>
      refine absurd ⟨before, path, after, ?_⟩ h
      rw [Text.eq_of_cutAtPair hopen, Text.eq_of_cutAtPair hclose]
      simp

/-- Reading from left to right gives a reading. -/
theorem ofChars_reads (text : List Char) : (ofChars text).Reads text := by
  fun_induction ofChars text with
  | case1 text hopen =>
    refine ⟨rfl, by simp, by simp, ?_⟩
    rintro ⟨before, path, after, htext⟩
    exact Text.cutAtPair_eq_none hopen _ _ (htext.trans (by simp; rfl))
  | case2 text before inner hopen hclose =>
    refine ⟨rfl, by simp, by simp, ?_⟩
    rintro ⟨front, path, after, htext⟩
    -- the closing pair stands behind the first opening pair too
    obtain ⟨m, hm⟩ := Text.suffix_of_cutAtPair hopen (htext.trans (by simp; rfl))
    exact Text.cutAtPair_eq_none hclose (m ++ path) after (by rw [← hm]; simp)
  | case3 text before inner hopen path after hclose hlt rest ih =>
    have htext := Text.eq_of_cutAtPair hopen
    have hinner := Text.eq_of_cutAtPair hclose
    refine ⟨?_, ?_, ?_, ih.unclosed⟩
    · have hrest := ih.spells
      simp only [source] at hrest ⊢
      rw [htext, hinner, List.flatMap_cons, List.append_assoc, hrest]
      simp
    · intro p hp
      rcases List.mem_cons.1 hp with rfl | hp
      · exact Text.firstAfter_of_cutAtPair hopen
      · exact ih.opens p hp
    · intro p hp
      rcases List.mem_cons.1 hp with rfl | hp
      · exact Text.firstAfter_of_cutAtPair hclose
      · exact ih.closes p hp

-- Of three braces the first two are the pair, on either side of a path.
example : ofChars "\x7b\x7b\x7ba\x7d\x7d\x7d\x7b\x7b".toList =
    ⟨[([], ['{', 'a'])], ['}', '{', '{']⟩ := by cbv

/-- A text has no other reading. -/
theorem Reads.eq_ofChars {t : Template} (h : t.Reads text) : t = ofChars text := by
  obtain ⟨pieces, tail⟩ := t
  induction pieces generalizing text with
  | nil =>
    obtain rfl : tail = text := h.spells
    rw [ofChars_of_unclosed h.unclosed]
  | cons p pieces ih =>
    have hrest : (Template.mk pieces tail).Reads (source ⟨pieces, tail⟩) :=
      ⟨rfl, fun q hq => h.opens q (List.mem_cons_of_mem _ hq),
        fun q hq => h.closes q (List.mem_cons_of_mem _ hq), h.unclosed⟩
    have htext : text =
        p.1 ++ '{' :: '{' :: (p.2 ++ '}' :: '}' :: source ⟨pieces, tail⟩) := by
      rw [← h.spells]
      simp [source]
    have hopen := Text.cutAtPair_append (h.opens p List.mem_cons_self)
      (p.2 ++ '}' :: '}' :: source ⟨pieces, tail⟩)
    have hclose := Text.cutAtPair_append (h.closes p List.mem_cons_self)
      (source ⟨pieces, tail⟩)
    rw [htext, ofChars_of_cut hopen hclose, ← ih hrest]

end Template

/-! ## Trees of texts -/

namespace Value

/-- The second tree is the first with every string in it rewritten. -/
inductive Rewritten (rewrite : String → String) : Value → Value → Prop where
  | null : Rewritten rewrite .null .null
  | bool (b : Bool) : Rewritten rewrite (.bool b) (.bool b)
  | number (n : Number) : Rewritten rewrite (.number n) (.number n)
  | string (s : String) : Rewritten rewrite (.string s) (.string (rewrite s))
  | array {items items' : List Value} (h : List.Forall₂ (Rewritten rewrite) items items') :
    Rewritten rewrite (.array items) (.array items')
  | object {fields fields' : List (String × Value)}
    (hkeys : fields.map Prod.fst = fields'.map Prod.fst)
    (h : List.Forall₂ (Rewritten rewrite) (fields.map Prod.snd) (fields'.map Prod.snd)) :
    Rewritten rewrite (.object fields) (.object fields')

end Value

namespace Bindings

variable (b : Bindings)

theorem resolveFields_keys (fields : List (String × Value)) :
    (b.resolveFields fields).map Prod.fst = fields.map Prod.fst := by
  induction fields with
  | nil => simp [resolveFields]
  | cons f fields ih => simp [resolveFields, ih]

mutual

theorem rewritten_resolveValue : ∀ v, Value.Rewritten b.resolve v (b.resolveValue v)
  | .null => by simpa [resolveValue] using .null
  | .bool x => by simpa [resolveValue] using .bool x
  | .number n => by simpa [resolveValue] using .number n
  | .string s => by simpa [resolveValue] using .string s
  | .array items => by simpa [resolveValue] using .array (rewritten_resolveItems items)
  | .object fields => by
    rw [resolveValue]
    exact .object (resolveFields_keys b fields).symm (rewritten_resolveFields fields)

theorem rewritten_resolveItems : ∀ items,
    List.Forall₂ (Value.Rewritten b.resolve) items (b.resolveItems items)
  | [] => by simp [resolveItems]
  | v :: vs => by
    rw [resolveItems]
    exact .cons (rewritten_resolveValue v) (rewritten_resolveItems vs)

theorem rewritten_resolveFields : ∀ fields : List (String × Value),
    List.Forall₂ (Value.Rewritten b.resolve) (fields.map Prod.snd)
      ((b.resolveFields fields).map Prod.snd)
  | [] => by simp [resolveFields]
  | (k, v) :: fs => by
    rw [resolveFields]
    exact .cons (rewritten_resolveValue v) (rewritten_resolveFields fs)

end

mutual

theorem eq_of_rewritten : ∀ v w, Value.Rewritten b.resolve v w → b.resolveValue v = w
  | .null, _, .null => by simp [resolveValue]
  | .bool _, _, .bool _ => by simp [resolveValue]
  | .number _, _, .number _ => by simp [resolveValue]
  | .string _, _, .string _ => by simp [resolveValue]
  | .array items, _, .array h => by rw [resolveValue, eq_of_rewrittenItems items _ h]
  | .object fields, _, .object hkeys h => by
    rw [resolveValue, eq_of_rewrittenFields fields _ hkeys h]

theorem eq_of_rewrittenItems : ∀ items items',
    List.Forall₂ (Value.Rewritten b.resolve) items items' → b.resolveItems items = items'
  | [], _, .nil => by simp [resolveItems]
  | v :: vs, _, .cons h hs => by
    rw [resolveItems, eq_of_rewritten v _ h, eq_of_rewrittenItems vs _ hs]

theorem eq_of_rewrittenFields : ∀ fields fields' : List (String × Value),
    fields.map Prod.fst = fields'.map Prod.fst →
    List.Forall₂ (Value.Rewritten b.resolve) (fields.map Prod.snd) (fields'.map Prod.snd) →
    b.resolveFields fields = fields'
  | [], [], _, _ => by simp [resolveFields]
  | (k, v) :: fs, (k', v') :: fs', hkeys, .cons h hs => by
    simp only [List.map_cons, List.cons.injEq] at hkeys
    obtain ⟨rfl, hkeys⟩ := hkeys
    rw [resolveFields, eq_of_rewritten v _ h, eq_of_rewrittenFields fs fs' hkeys hs]

end

/-- **A tree resolved is the tree with every string resolved, and nothing else changed.** -/
theorem resolveValue_eq_iff (v w : Value) :
    b.resolveValue v = w ↔ Value.Rewritten b.resolve v w := by
  refine ⟨?_, eq_of_rewritten b v w⟩
  rintro rfl
  exact rewritten_resolveValue b v

end Bindings

/-! ## The statement -/

/-- The text that a path stands for. Blanks around the path do not count. -/
inductive Bindings.TextAt (b : Bindings) (path : List Char) : List Char → Prop where
  | nothing (h : b.lookup (String.ofList (Text.trim path)) = none) : TextAt b path []
  | string (s : String) (h : b.lookup (String.ofList (Text.trim path)) = some (.string s)) :
    TextAt b path s.toList
  | compact (v : Value) (h : b.lookup (String.ofList (Text.trim path)) = some v)
    (hv : ∀ s, v ≠ .string s) : TextAt b path v.text.toList

theorem Template.substitution_textAt (b : Bindings) (path : List Char) :
    b.TextAt path (substitution b path) := by
  rw [substitution]
  cases h : b.lookup (String.ofList (Text.trim path)) with
  | none => exact .nothing h
  | some v =>
    cases v with
    | string s => exact .string s h
    | _ => exact .compact _ h (by simp)

/-- A template in a context is its one reading with the text of every path in the path's place; a
template without a complete placeholder is itself, and in a tree of values exactly the strings are
treated so. -/
theorem Bindings.resolve_by_reading (template : String) :
    (∃ t : Template, t.Reads template.toList ∧ (∀ t', t'.Reads template.toList → t' = t) ∧
      ∀ b : Bindings, (∀ path, b.TextAt path (Template.substitution b path)) ∧
        b.resolve template = String.ofList
          (t.pieces.flatMap (fun p => p.1 ++ Template.substitution b p.2) ++ t.tail)) ∧
    (Template.HasPlaceholder template.toList ∨ ∀ b : Bindings, b.resolve template = template) ∧
    ∀ (b : Bindings) (v w : Value), b.resolveValue v = w ↔ Value.Rewritten b.resolve v w := by
  refine ⟨⟨Template.ofChars template.toList, Template.ofChars_reads _, ?_, ?_⟩, ?_,
    Bindings.resolveValue_eq_iff⟩
  · intro t h
    exact h.eq_ofChars
  · intro b
    exact ⟨Template.substitution_textAt b, rfl⟩
  · by_cases h : Template.HasPlaceholder template.toList
    · exact .inl h
    · right
      intro b
      rw [resolve, Template.ofChars_of_unclosed h]
      simp [Template.fill]

end WorkflowEngine
