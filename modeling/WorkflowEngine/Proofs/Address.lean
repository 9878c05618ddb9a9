import Mathlib.Data.List.Forall2
import WorkflowEngine.Executor.Input
import WorkflowEngine.Proofs.Placeholders

/-!
# Addresses

Where a value stands is said without walking to it, and paths are shown to lead there.

**Addresses.** An address is a bound name and then, from value to value, keys of objects and
indices of arrays (`Value.At`, `Bindings.At`). It is written with dots between its parts, an index
in decimal (`Address.written`). What is written is read back in a more lenient way: an index may have
leading zeros and a plus sign (`Address.ReadFrom`).

**Keys with a dot.** A path is cut at every dot, so no part of it is a key with a dot in it. What
stands below such a key could just as well be missing (`Bindings.undotted`).

**Theorem (`Bindings.lookup_by_address`).** A path leads to a value iff it is read as an address at
which the value stands. Conditions, placeholders, and inputs of executors go by this, and texts of
the value are the same everywhere.
-/

namespace WorkflowEngine

/-! ## Cutting at marks -/

namespace Text

/-- The parts of a text are those of the library's cut. -/
theorem parts_eq_splitOn (mark : Char) (text : List Char) :
    parts mark text = text.splitOn mark := by
  induction text with
  | nil => rfl
  | cons c cs ih =>
    rw [parts, List.splitOn_cons_eq_if_modifyHead, ih]
    by_cases hc : c = mark
    · simp [hc]
    · rw [if_neg hc, if_neg (by simpa using hc)]
      cases h : cs.splitOn mark with
      | nil => exact absurd h (List.splitOn_ne_nil mark cs)
      | cons s rest => rfl

theorem not_mem_of_mem_parts {mark : Char} {text s : List Char} (hs : s ∈ parts mark text) :
    mark ∉ s := by
  induction text generalizing s with
  | nil =>
    obtain rfl := List.mem_singleton.1 hs
    simp
  | cons c cs ih =>
    rw [parts] at hs
    split at hs
    · rcases List.mem_cons.1 hs with rfl | hs
      · simp
      · exact ih hs
    · next hc =>
      cases h : parts mark cs with
      | nil => exact absurd h (parts_ne_nil mark cs)
      | cons first rest =>
        rw [h] at hs ih
        rcases List.mem_cons.1 hs with rfl | hs
        · have hfirst := ih (List.mem_cons_self ..)
          simp only [List.mem_cons, not_or]
          exact ⟨fun heq => hc heq.symm, hfirst⟩
        · exact ih (List.mem_cons_of_mem _ hs)

theorem parts_intercalate {mark : Char} {segments : List (List Char)}
    (h : ∀ s ∈ segments, mark ∉ s) (hne : segments ≠ []) :
    parts mark ([mark].intercalate segments) = segments := by
  rw [parts_eq_splitOn, List.splitOn_intercalate mark h hne]

/-! ## Decimal numbers -/

/-- The text is made of decimal digits, and they denote the number. Leading zeros do not count. -/
def Decimal (text : List Char) (n : Nat) : Prop :=
  text ≠ [] ∧ (∀ c ∈ text, c.isDigit) ∧ Nat.ofDigitChars 10 text 0 = n

theorem digit?_of_isDigit {c : Char} (h : c.isDigit) :
    digit? 10 c = some (c.toNat - '0'.toNat) := by
  have hrange := Char.isDigit_iff_toNat.1 h
  rw [digit?]
  simp only [h, if_true, Option.filter_some]
  refine if_pos ?_
  have hnine : '9'.toNat = '0'.toNat + 9 := rfl
  simp only [decide_eq_true_eq]
  omega

theorem digit?_of_not_isDigit {c : Char} (h : ¬c.isDigit) : digit? 10 c = none := by
  rw [digit?, if_neg h]
  split
  · simp
  · split
    · simp
    · rfl

/-- Reading digits one after another, behind those that have made up `a`. -/
theorem foldlM_digit? (cs : List Char) (a n : Nat) :
    cs.foldlM (fun n c => (digit? 10 c).map (10 * n + ·)) a = some n ↔
      (∀ c ∈ cs, c.isDigit) ∧ Nat.ofDigitChars 10 cs a = n := by
  induction cs generalizing a with
  | nil => simp
  | cons c cs ih =>
    rw [List.foldlM_cons, Nat.ofDigitChars_cons]
    by_cases hc : c.isDigit
    · rw [digit?_of_isDigit hc]
      simpa [hc] using ih _
    · rw [digit?_of_not_isDigit hc]
      simp [hc]

theorem natural?_eq_some_iff {cs : List Char} {n : Nat} :
    natural? 10 cs = some n ↔ Decimal cs n := by
  cases cs with
  | nil => simp [natural?, Decimal]
  | cons c cs => simpa [natural?, Decimal] using foldlM_digit? (c :: cs) 0 n

theorem decimal_toDigits (n : Nat) : Decimal (Nat.toDigits 10 n) n :=
  ⟨Nat.toDigits_ne_nil, fun _ hc => Nat.isDigit_of_mem_toDigits (by decide) (by decide) hc,
    Nat.ofDigitChars_ten_toDigits⟩

end Text

/-! ## Addresses -/

/-- One step down into a value: to a field of an object or to an item of an array. Indices have 64
bits. -/
inductive Hop where
  | key (name : String)
  | index (i : UInt64)

namespace Hop

/-- How a hop is written in a path. -/
def written : Hop → String
  | .key name => name
  | .index i => Nat.repr i.toNat

/-- A segment of a path is read as this hop: as the key that it is, or as the index that it denotes
in decimal, with or without a plus sign. -/
def ReadFrom (segment : String) : Hop → Prop
  | .key name => segment = name
  | .index i => ∃ digits, (segment.toList = digits ∨ segment.toList = '+' :: digits) ∧
      Text.Decimal digits i.toNat

/-- The hop is not along a key with a dot in it. -/
def Dotless : Hop → Prop
  | .key name => '.' ∉ name.toList
  | .index _ => True

end Hop

/-- One hop leads from the first value to the second. -/
inductive Value.Holds : Value → Hop → Value → Prop
  | field {fields : List (String × Value)} {key : String} {v : Value} :
      fields.lookup key = some v → Holds (.object fields) (.key key) v
  | item {items : List Value} {i : UInt64} {v : Value} :
      items[i.toNat]? = some v → Holds (.array items) (.index i) v

/-- The hops lead from the first value to the second. -/
inductive Value.At : Value → List Hop → Value → Prop
  | here (v : Value) : At v [] v
  | down {v u w : Value} {hop : Hop} {hops : List Hop} :
      v.Holds hop u → At u hops w → At v (hop :: hops) w

/-- A bound name, and hops from its value on. -/
structure Address where
  name : String
  hops : List Hop

namespace Address

/-- The address, written with dots. -/
def written (a : Address) : String := ".".intercalate (a.name :: a.hops.map Hop.written)

/-- No key on the way has a dot in it. -/
def Dotless (a : Address) : Prop := '.' ∉ a.name.toList ∧ ∀ hop ∈ a.hops, hop.Dotless

/-- The path, cut at its dots, is read as this address. -/
def ReadFrom (path : String) (a : Address) : Prop :=
  ∃ segments : List String, path = ".".intercalate (a.name :: segments) ∧
    (∀ s ∈ a.name :: segments, '.' ∉ s.toList) ∧ List.Forall₂ Hop.ReadFrom segments a.hops

end Address

/-- The value stands at the address. -/
def Bindings.At (b : Bindings) (a : Address) (w : Value) : Prop :=
  ∃ v, b.get? a.name = some v ∧ v.At a.hops w

/-! ## Reading what is written -/

theorem Path.segments_intercalate {segments : List String} (h : ∀ s ∈ segments, '.' ∉ s.toList)
    (hne : segments ≠ []) : Path.segments (".".intercalate segments) = segments := by
  have hparts : Text.parts '.' (".".intercalate segments).toList = segments.map String.toList := by
    rw [String.toList_intercalate]
    refine Text.parts_intercalate ?_ (by simpa using hne)
    simpa using h
  rw [Path.segments, hparts]
  simp

theorem Path.intercalate_segments (path : String) :
    ".".intercalate (Path.segments path) = path := by
  apply String.toList_injective
  rw [String.toList_intercalate, Path.segments]
  simpa using Text.intercalate_parts '.' path.toList

theorem Path.not_mem_of_mem_segments {path s : String} (h : s ∈ Path.segments path) :
    '.' ∉ s.toList := by
  obtain ⟨part, hpart, rfl⟩ := List.mem_map.1 h
  simpa using Text.not_mem_of_mem_parts hpart

theorem Path.exists_segments (path : String) : ∃ name rest, Path.segments path = name :: rest :=
  List.exists_cons_of_ne_nil (by simpa [Path.segments] using Text.parts_ne_nil '.' path.toList)

theorem Path.segments_of_dotless {path : String} (h : '.' ∉ path.toList) :
    Path.segments path = [path] := by
  have hsingle : Path.segments (".".intercalate [path]) = [path] :=
    Path.segments_intercalate (by simpa using h) (by simp)
  rwa [String.intercalate_singleton] at hsingle

/-- What is read as an index. -/
theorem Path.index?_eq_some_iff {segment : String} {n : Nat} :
    Path.index? segment = some n ↔ n < Number.wordBound ∧ ∃ digits,
      (segment.toList = digits ∨ segment.toList = '+' :: digits) ∧ Text.Decimal digits n := by
  rw [Path.index?, Option.filter_eq_some_iff, Text.natural?_eq_some_iff, decide_eq_true_eq,
    and_comm]
  refine and_congr_right fun _ => ?_
  split
  · next cs hcs =>
    refine ⟨fun h => ⟨cs, .inr hcs, h⟩, ?_⟩
    rintro ⟨digits, heq | heq, h⟩
    · -- a plus sign is no digit
      have hplus := h.2.1 '+' (by rw [← heq, hcs]; exact List.mem_cons_self ..)
      exact absurd hplus (by decide)
    · rw [hcs, List.cons.injEq] at heq
      exact heq.2 ▸ h
  · next hplus =>
    refine ⟨fun h => ⟨_, .inl rfl, h⟩, ?_⟩
    rintro ⟨digits, heq | heq, h⟩
    · exact heq ▸ h
    · exact absurd heq (hplus digits)

namespace Hop

theorem readFrom_written (hop : Hop) : ReadFrom hop.written hop := by
  cases hop with
  | key name => rfl
  | index i =>
    refine ⟨_, .inl ?_, Text.decimal_toDigits i.toNat⟩
    rw [written, Nat.repr_eq_ofList_toDigits, String.toList_ofList]

theorem dotless_written {hop : Hop} (h : hop.Dotless) : '.' ∉ hop.written.toList := by
  cases hop with
  | key name => exact h
  | index i =>
    rw [written, Nat.repr_eq_ofList_toDigits, String.toList_ofList]
    intro hdot
    exact absurd (Nat.isDigit_of_mem_toDigits (by decide) (by decide) hdot) (by decide)

end Hop

namespace Value

variable {v w : Value}

/-- **One step of a walk** is a hop that the segment is read as. -/
theorem child_eq_some_iff {segment : String} :
    v.child segment = some w ↔ ∃ hop, Hop.ReadFrom segment hop ∧ v.Holds hop w := by
  constructor
  · intro h
    unfold child at h
    split at h
    · next fields => exact ⟨.key segment, rfl, .field h⟩
    · next items =>
      obtain ⟨n, hn, hitem⟩ := Option.bind_eq_some_iff.1 h
      obtain ⟨hbound, hread⟩ := Path.index?_eq_some_iff.1 hn
      have hword : (UInt64.ofNat n).toNat = n := UInt64.toNat_ofNat_of_lt' hbound
      refine ⟨.index (UInt64.ofNat n), ?_, .item ?_⟩
      · rwa [Hop.ReadFrom, hword]
      · rwa [hword]
    · cases h
  · rintro ⟨hop, hread, hholds⟩
    cases hholds with
    | field h =>
      obtain rfl : segment = _ := hread
      exact h
    | item h =>
      have hindex := Path.index?_eq_some_iff.2 ⟨UInt64.toNat_lt _, hread⟩
      rw [child, hindex]
      exact h

/-- A walk goes along hops that its segments are read as. -/
theorem descend_eq_some_iff {segments : List String} :
    v.descend segments = some w ↔
      ∃ hops, List.Forall₂ Hop.ReadFrom segments hops ∧ v.At hops w := by
  induction segments generalizing v with
  | nil =>
    constructor
    · intro h
      obtain rfl := Option.some.inj h
      exact ⟨[], .nil, .here _⟩
    · rintro ⟨hops, hread, hat⟩
      cases hread
      cases hat
      rfl
  | cons s rest ih =>
    rw [descend, Option.bind_eq_some_iff]
    constructor
    · rintro ⟨u, hchild, hdescend⟩
      obtain ⟨hop, hread, hholds⟩ := child_eq_some_iff.1 hchild
      obtain ⟨hops, hreads, hat⟩ := ih.1 hdescend
      exact ⟨hop :: hops, .cons hread hreads, .down hholds hat⟩
    · rintro ⟨hops, hreads, hat⟩
      cases hreads with
      | cons hread hreads =>
        cases hat with
        | down hholds hat =>
          exact ⟨_, child_eq_some_iff.2 ⟨_, hread, hholds⟩, ih.2 ⟨_, hreads, hat⟩⟩

end Value

namespace Address

variable {a : Address} {path : String}

/-- An address is read from what is written for it. -/
theorem Dotless.readFrom_written (h : a.Dotless) : a.ReadFrom a.written := by
  refine ⟨_, rfl, ?_, ?_⟩
  · intro s hs
    rcases List.mem_cons.1 hs with rfl | hs
    · exact h.1
    · obtain ⟨hop, hhop, rfl⟩ := List.mem_map.1 hs
      exact Hop.dotless_written (h.2 hop hhop)
  · rw [List.forall₂_map_left_iff, List.forall₂_same]
    exact fun hop _ => hop.readFrom_written

/-- No path is read as an address with a dot in a key. -/
theorem ReadFrom.dotless (h : a.ReadFrom path) : a.Dotless := by
  obtain ⟨name, hops⟩ := a
  obtain ⟨segments, -, hdots, hread⟩ := h
  dsimp only at hdots hread
  refine ⟨hdots name (List.mem_cons_self ..), ?_⟩
  have hsegments : ∀ s ∈ segments, '.' ∉ s.toList := fun s hs => hdots s (List.mem_cons_of_mem _ hs)
  clear hdots
  induction hread with
  | nil => simp
  | @cons s hop segments hops hhop _ ih =>
    refine List.forall_mem_cons.2 ⟨?_, ih fun s hs => hsegments s (List.mem_cons_of_mem _ hs)⟩
    cases hop with
    | key name =>
      obtain rfl : s = name := hhop
      exact hsegments s (List.mem_cons_self ..)
    | index i => trivial

end Address

namespace Bindings

variable (b : Bindings)

/-- **A path leads to a value iff it is read as an address at which the value stands.** -/
theorem lookup_eq_some_iff {path : String} {w : Value} :
    b.lookup path = some w ↔ ∃ a : Address, a.ReadFrom path ∧ b.At a w := by
  obtain ⟨name, rest, hsegments⟩ := Path.exists_segments path
  have hpath : ".".intercalate (name :: rest) = path := by
    rw [← hsegments, Path.intercalate_segments]
  have hlookup : b.lookup path = (b.get? name).bind (·.descend rest) := by
    rw [lookup, hsegments]
  rw [hlookup, Option.bind_eq_some_iff]
  constructor
  · rintro ⟨v, hv, hdescend⟩
    obtain ⟨hops, hread, hat⟩ := Value.descend_eq_some_iff.1 hdescend
    refine ⟨⟨name, hops⟩, ⟨rest, hpath.symm, ?_, hread⟩, v, hv, hat⟩
    intro s hs
    exact Path.not_mem_of_mem_segments (hsegments ▸ hs)
  · rintro ⟨a, ⟨segments, heq, hdots, hread⟩, v, hv, hat⟩
    -- the segments of a path are determined by it
    have hsame : name :: rest = a.name :: segments := by
      rw [← hsegments, heq, Path.segments_intercalate hdots (by simp)]
    obtain ⟨rfl, rfl⟩ := List.cons.inj hsame
    exact ⟨v, hv, Value.descend_eq_some_iff.2 ⟨_, hread, hat⟩⟩

theorem lookup_of_dotless {name : String} (h : '.' ∉ name.toList) :
    b.lookup name = b.get? name := by
  rw [lookup, Path.segments_of_dotless h]
  show (b.get? name).bind some = b.get? name
  exact Option.bind_fun_some (b.get? name)

end Bindings

/-! ## Keys with a dot -/

namespace Value

mutual

/-- The value without the fields that have a dot in their key, and without what is below them. -/
def undotted : Value → Value
  | .array items => .array (undottedItems items)
  | .object fields => .object (undottedFields fields)
  | v => v

def undottedItems : List Value → List Value
  | [] => []
  | v :: vs => undotted v :: undottedItems vs

def undottedFields : List (String × Value) → List (String × Value)
  | [] => []
  | (k, v) :: fs =>
    if '.' ∈ k.toList then undottedFields fs else (k, undotted v) :: undottedFields fs

end

theorem getElem?_undottedItems (items : List Value) (n : Nat) :
    (undottedItems items)[n]? = (items[n]?).map undotted := by
  induction items generalizing n with
  | nil => rfl
  | cons v vs ih =>
    cases n with
    | zero => rfl
    | succ n => simpa [undottedItems] using ih n

theorem lookup_undottedFields {key : String} (h : '.' ∉ key.toList)
    (fields : List (String × Value)) :
    (undottedFields fields).lookup key = (fields.lookup key).map undotted := by
  induction fields with
  | nil => rfl
  | cons f fs ih =>
    obtain ⟨k, v⟩ := f
    rw [undottedFields, Record.lookup_cons]
    split
    · next hk =>
      have hne : key ≠ k := by
        rintro rfl
        exact h hk
      rw [ih, if_neg hne]
    · rw [Record.lookup_cons, ih]
      by_cases hkey : key = k <;> simp [hkey]

theorem child_undotted {segment : String} (h : '.' ∉ segment.toList) (v : Value) :
    v.undotted.child segment = (v.child segment).map undotted := by
  cases v with
  | array items =>
    rw [undotted, child, child]
    cases Path.index? segment with
    | none => rfl
    | some n => exact getElem?_undottedItems items n
  | object fields => exact lookup_undottedFields h fields
  | _ => rfl

theorem descend_undotted {segments : List String} (h : ∀ s ∈ segments, '.' ∉ s.toList) (v : Value) :
    v.undotted.descend segments = (v.descend segments).map undotted := by
  induction segments generalizing v with
  | nil => rfl
  | cons s rest ih =>
    obtain ⟨hs, hrest⟩ := List.forall_mem_cons.1 h
    rw [descend, descend, child_undotted hs]
    cases v.child s with
    | none => rfl
    | some u => exact ih hrest u

theorem mem_keys_of_mem_undottedFields {fields : List (String × Value)} {e : String × Value}
    (h : e ∈ undottedFields fields) : ∃ v, (e.1, v) ∈ fields := by
  induction fields with
  | nil => cases h
  | cons f fs ih =>
    obtain ⟨k, v⟩ := f
    rw [undottedFields] at h
    split at h
    · obtain ⟨w, hw⟩ := ih h
      exact ⟨w, List.mem_cons_of_mem _ hw⟩
    · rcases List.mem_cons.1 h with rfl | h
      · exact ⟨v, List.mem_cons_self ..⟩
      · obtain ⟨w, hw⟩ := ih h
        exact ⟨w, List.mem_cons_of_mem _ hw⟩

theorem undottedFields_increasing {fields : List (String × Value)}
    (h : fields.Pairwise fun a b => a.1 < b.1) :
    (undottedFields fields).Pairwise fun a b => a.1 < b.1 := by
  induction fields with
  | nil => exact .nil
  | cons f fs ih =>
    obtain ⟨hlt, hfs⟩ := List.pairwise_cons.1 h
    rw [undottedFields]
    split
    · exact ih hfs
    · refine List.pairwise_cons.2 ⟨fun e he => ?_, ih hfs⟩
      obtain ⟨v, hv⟩ := mem_keys_of_mem_undottedFields he
      exact hlt (e.1, v) hv

end Value

namespace Bindings

/-- The bindings without the names and keys that have a dot in them. -/
def undotted (b : Bindings) : Bindings :=
  ⟨Value.undottedFields b.entries, Value.undottedFields_increasing b.increasing⟩

/-- **What stands below a key with a dot makes no difference to any path.** -/
theorem lookup_undotted (b : Bindings) (path : String) :
    b.undotted.lookup path = (b.lookup path).map Value.undotted := by
  obtain ⟨name, rest, hsegments⟩ := Path.exists_segments path
  have hdots : ∀ s ∈ name :: rest, '.' ∉ s.toList := fun s hs =>
    Path.not_mem_of_mem_segments (hsegments ▸ hs)
  obtain ⟨hname, hrest⟩ := List.forall_mem_cons.1 hdots
  have hget : b.undotted.get? name = (b.get? name).map Value.undotted :=
    Value.lookup_undottedFields hname b.entries
  rw [lookup, lookup, hsegments]
  dsimp only
  rw [hget]
  cases b.get? name with
  | none => rfl
  | some v => exact Value.descend_undotted hrest v

end Bindings

/-! ## Paths in braces -/

/-- Between pairs of braces the path stands for itself: it has no blanks at its ends, and the first
closing pair is the one behind it. -/
structure Path.Placeable (path : String) : Prop where
  trimmed : Text.trim path.toList = path.toList
  unpaired : ¬['}', '}'] <:+: path.toList
  unbraced : ¬['}'] <:+ path.toList

theorem Path.Placeable.firstAfter {path : String} (h : Path.Placeable path) :
    Text.FirstAfter '}' path.toList := by
  intro before after heq
  rcases List.eq_nil_or_concat after with rfl | ⟨after, x, rfl⟩
  · exact (List.append_inj_left' heq rfl).symm
  · -- then a pair, or at least its first brace, would be in the path
    exfalso
    have hfront : path.toList ++ ['}'] = before ++ '}' :: '}' :: after := by
      refine List.append_inj_left' (show _ ++ ['}'] = _ ++ [x] from ?_) rfl
      simpa using heq
    rcases List.eq_nil_or_concat after with rfl | ⟨after, y, rfl⟩
    · refine h.unbraced ⟨before, ?_⟩
      refine (List.append_inj_left' (show _ ++ ['}'] = _ ++ ['}'] from ?_) rfl).symm
      simpa using hfront
    · refine h.unpaired ⟨before, after, ?_⟩
      refine (List.append_inj_left' (show _ ++ ['}'] = _ ++ [y] from ?_) rfl).symm
      simpa using hfront

/-- The template that is nothing but a path in braces. -/
theorem Path.Placeable.resolve {path : String} (h : Path.Placeable path) (b : Bindings) :
    b.resolve ("\x7b\x7b" ++ path ++ "\x7d\x7d") =
      String.ofList (Template.substitution b path.toList) := by
  have hreads : (Template.mk [([], path.toList)] []).Reads
      ("\x7b\x7b" ++ path ++ "\x7d\x7d").toList := by
    refine ⟨by simp [Template.source], ?_, ?_, ?_⟩
    · simpa using Text.firstAfter_nil
    · simpa using h.firstAfter
    · rintro ⟨before, inner, after, hnil⟩
      simp at hnil
  rw [Bindings.resolve, ← hreads.eq_ofChars]
  simp [Template.fill]

/-! ## Readers -/

section

variable {b : Bindings} {path : String} {v : Value}

theorem Template.substitution_of_lookup {inner : List Char}
    (h : b.lookup (String.ofList (Text.trim inner)) = some v) :
    Template.substitution b inner = v.plain.toList := by
  rw [Template.substitution, h]

theorem Template.substitution_of_nowhere {inner : List Char}
    (h : b.lookup (String.ofList (Text.trim inner)) = none) :
    Template.substitution b inner = [] := by
  rw [Template.substitution, h]

theorem Executor.inputText_of_lookup {op : Op} (hop : op.textParam "inputKey" = .ok (some path))
    (h : b.lookup path = some v) : Executor.inputText op b = .ok v.plain := by
  simp only [Executor.inputText, hop, bind, Except.bind, h]
  rfl

theorem Executor.inputText_of_nowhere {op : Op} (hop : op.textParam "inputKey" = .ok (some path))
    (h : b.lookup path = none) :
    Executor.inputText op b = .error (op.invalid "inputKey" (.unbound path)) := by
  simp only [Executor.inputText, hop, bind, Except.bind, h]
  rfl

theorem Value.join_singleton (v : Value) (separator : String) :
    Value.join [v] separator = v.plain :=
  String.intercalate_singleton

end

/-- What a reader sees who is given a path that leads to the value. -/
structure Bindings.ReadAlike (b : Bindings) (path : String) (v : Value) : Prop where
  value : b.lookup path = some v
  condition : b.isTruthy path = v.truthy
  placeholder : Path.Placeable path → b.resolve ("\x7b\x7b" ++ path ++ "\x7d\x7d") = v.plain
  input : ∀ op : Op, op.textParam "inputKey" = .ok (some path) →
    Executor.inputText op b = .ok v.plain
  joined : ∀ separator, Value.join [v] separator = v.plain

/-- What a reader sees who is given a path that leads nowhere. -/
structure Bindings.ReadNowhere (b : Bindings) (path : String) : Prop where
  value : b.lookup path = none
  condition : b.isTruthy path = false
  placeholder : ∀ inner, String.ofList (Text.trim inner) = path → Template.substitution b inner = []
  alone : Path.Placeable path → b.resolve ("\x7b\x7b" ++ path ++ "\x7d\x7d") = ""
  input : ∀ op : Op, op.textParam "inputKey" = .ok (some path) →
    Executor.inputText op b = .error (op.invalid "inputKey" (.unbound path))

namespace Bindings

variable {b : Bindings} {path : String} {v : Value}

theorem readAlike_of_lookup (h : b.lookup path = some v) : b.ReadAlike path v where
  value := h
  condition := by simp [isTruthy, h]
  placeholder hplace := by
    rw [hplace.resolve, Template.substitution_of_lookup (v := v)]
    · simp
    · rwa [hplace.trimmed, String.ofList_toList]
  input _ hop := Executor.inputText_of_lookup hop h
  joined := v.join_singleton

theorem readNowhere_of_lookup (h : b.lookup path = none) : b.ReadNowhere path where
  value := h
  condition := by simp [isTruthy, h]
  placeholder inner hinner := Template.substitution_of_nowhere (hinner ▸ h)
  alone hplace := by
    rw [hplace.resolve, Template.substitution_of_nowhere]
    rwa [hplace.trimmed, String.ofList_toList]
  input _ hop := Executor.inputText_of_nowhere hop h

end Bindings

/-- **Paths and addresses.** The path written for an address without dots in its keys leads to the
value that stands there, for every reader. A path that leads to a value is read as such an address
at which the value stands; a path that is read as none leads nowhere, for every reader. And what
stands below a key with a dot makes no difference to any path. -/
theorem Bindings.lookup_by_address (b : Bindings) :
    (∀ (a : Address) (v : Value), a.Dotless → b.At a v → b.ReadAlike a.written v) ∧
    (∀ path v, b.lookup path = some v →
      ∃ a : Address, a.Dotless ∧ a.ReadFrom path ∧ b.At a v) ∧
    (∀ path, (¬∃ (a : Address) (v : Value), a.Dotless ∧ a.ReadFrom path ∧ b.At a v) →
      b.ReadNowhere path) ∧
    ∀ path, (∀ a : Address, a.ReadFrom path → a.Dotless) ∧
      b.undotted.lookup path = (b.lookup path).map Value.undotted := by
  refine ⟨fun a v hdots hat => ?_, fun path v h => ?_, fun path hnone => ?_,
    fun path => ⟨fun a ha => ha.dotless, b.lookup_undotted path⟩⟩
  · exact readAlike_of_lookup (b.lookup_eq_some_iff.2 ⟨a, hdots.readFrom_written, hat⟩)
  · obtain ⟨a, hread, hat⟩ := b.lookup_eq_some_iff.1 h
    exact ⟨a, hread.dotless, hread, hat⟩
  · refine readNowhere_of_lookup (Option.eq_none_iff_forall_ne_some.2 fun v hv => hnone ?_)
    obtain ⟨a, hread, hat⟩ := b.lookup_eq_some_iff.1 hv
    exact ⟨a, v, hread.dotless, hread, hat⟩

/-- Values below one name, one of them under a key with a dot. -/
def Bindings.nested : Bindings :=
  .ofList [("user", .object [("a.b", .bool true), ("tags", .array [.string "x", .string "y"])])]

theorem Bindings.lookup_by_address_of_nested :
    nested.ReadAlike "user.tags.1" (.string "y") ∧
    (∃ a : Address, a.Dotless ∧ a.ReadFrom "user.tags.+01" ∧ nested.At a (.string "y")) ∧
    nested.ReadNowhere "user.a.b" ∧ nested.undotted.lookup "user.a.b" = none := by
  have huser : nested.get? "user" =
      some (.object [("a.b", .bool true), ("tags", .array [.string "x", .string "y"])]) := rfl
  obtain ⟨hwritten, hread, hnowhere, hdotted⟩ := nested.lookup_by_address
  have hbelow : nested.lookup "user.a.b" = none := by decide +kernel
  refine ⟨hwritten ⟨"user", [.key "tags", .index 1]⟩ _ ⟨by decide, ?_⟩ ⟨_, huser, ?_⟩,
    hread _ _ (by decide +kernel), hnowhere _ ?_, ?_⟩
  · simp [Hop.Dotless]
  · exact .down (.field rfl) (.down (.item rfl) (.here _))
  · rintro ⟨a, v, -, hpath, hat⟩
    exact absurd (hbelow.symm.trans (nested.lookup_eq_some_iff.2 ⟨a, hpath, hat⟩)) nofun
  · rw [(hdotted _).2, hbelow]
    rfl

end WorkflowEngine
