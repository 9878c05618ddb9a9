/-!
# Records: names bound to values, in a fixed order

A record binds each of finitely many names to one value. Its entries are kept in increasing order
of name (the order of the names' code points), so that two records with the same bindings are the
same record, and writing one out needs no sorting.

**Views.** `Record.get?` says what a name is bound to; `Record.insert` and `Record.erase` are
described through it (`get?_insert`, `get?_erase`).
-/

namespace WorkflowEngine

universe u v

/-- Finitely many names, each bound to one value, in increasing order of name. -/
structure Record (α : Type u) where
  entries : List (String × α)
  increasing : entries.Pairwise (fun a b => a.1 < b.1)

namespace Record

variable {α : Type u} {β : Type v}

/-! ## Entry lists -/

/-- Binds a name in a list of entries, at its place in the order. -/
def put (key : String) (value : α) : List (String × α) → List (String × α)
  | [] => [(key, value)]
  | e :: rest =>
    if key < e.1 then (key, value) :: e :: rest
    else if key = e.1 then (key, value) :: rest
    else e :: put key value rest

theorem mem_of_mem_put {key : String} {value : α} {es : List (String × α)} {e : String × α}
    (h : e ∈ put key value es) : e = (key, value) ∨ e ∈ es := by
  induction es with
  | nil => simp_all [put]
  | cons d rest ih =>
    simp only [put] at h
    split at h
    · rcases List.mem_cons.1 h with rfl | h
      · exact .inl rfl
      · exact .inr h
    · split at h
      · rcases List.mem_cons.1 h with rfl | h
        · exact .inl rfl
        · exact .inr (List.mem_cons_of_mem _ h)
      · rcases List.mem_cons.1 h with rfl | h
        · exact .inr (List.mem_cons_self ..)
        · exact (ih h).imp_right (List.mem_cons_of_mem _)

theorem lt_of_not_lt_of_ne {a b : String} (h : ¬a < b) (hne : a ≠ b) : b < a := by
  by_cases hba : b < a
  · exact hba
  · exact absurd (String.le_antisymm (String.not_lt.1 hba) (String.not_lt.1 h)) hne

theorem put_increasing (key : String) (value : α) {es : List (String × α)}
    (h : es.Pairwise (fun a b => a.1 < b.1)) :
    (put key value es).Pairwise (fun a b => a.1 < b.1) := by
  induction es with
  | nil => simp [put]
  | cons d rest ih =>
    obtain ⟨hd, hrest⟩ := List.pairwise_cons.1 h
    simp only [put]
    split
    · next hlt =>
      refine List.pairwise_cons.2 ⟨fun e he => ?_, h⟩
      rcases List.mem_cons.1 he with rfl | he
      · exact hlt
      · exact String.lt_trans hlt (hd e he)
    · split
      · next heq =>
        exact List.pairwise_cons.2 ⟨fun e he => heq ▸ hd e he, hrest⟩
      · next hlt hne =>
        refine List.pairwise_cons.2 ⟨fun e he => ?_, ih hrest⟩
        rcases mem_of_mem_put he with he | he
        · exact (congrArg Prod.fst he) ▸ lt_of_not_lt_of_ne hlt hne
        · exact hd e he

theorem lookup_cons (k : String) (e : String × α) (es : List (String × α)) :
    (e :: es).lookup k = if k = e.1 then some e.2 else es.lookup k := by
  obtain ⟨l, v⟩ := e
  by_cases h : k = l
  · rw [List.lookup_cons, if_pos h, beq_iff_eq.2 h]
  · rw [List.lookup_cons, if_neg h, beq_eq_false_iff_ne.2 h]

theorem lookup_put (key k : String) (value : α) (es : List (String × α)) :
    (put key value es).lookup k = if k = key then some value else es.lookup k := by
  induction es with
  | nil => rw [put, lookup_cons]
  | cons d rest ih =>
    rw [put]
    split
    · rw [lookup_cons]
    · split
      · next heq => by_cases h : k = key <;> simp [lookup_cons, ← heq, h]
      · next hne =>
        rw [lookup_cons, ih, lookup_cons]
        by_cases h : k = d.1
        · have hkey : d.1 ≠ key := fun hk => hne hk.symm
          simp [h, hkey]
        · simp [h]

/-! ## Records -/

/-- The record that binds nothing. -/
def empty : Record α := ⟨[], .nil⟩

instance : Inhabited (Record α) := ⟨empty⟩

/-- What a name is bound to. -/
def get? (r : Record α) (key : String) : Option α := r.entries.lookup key

/-- Binds a name; what it was bound to before is forgotten. -/
def insert (r : Record α) (key : String) (value : α) : Record α :=
  ⟨put key value r.entries, put_increasing key value r.increasing⟩

/-- Unbinds a name. -/
def erase (r : Record α) (key : String) : Record α :=
  ⟨r.entries.filter (fun e => e.1 != key), r.increasing.filter _⟩

/-- Binds the names of a list from left to right, so the last binding of a name stays. -/
def insertAll (r : Record α) (es : List (String × α)) : Record α :=
  es.foldl (fun s e => s.insert e.1 e.2) r

/-- The record with the bindings of a list; of two bindings of one name the later one stays. -/
def ofList (es : List (String × α)) : Record α := empty.insertAll es

/-- Lays the bindings of `other` over those of `r`: where both bind a name, `other` wins. -/
def union (r other : Record α) : Record α := r.insertAll other.entries

/-- Whether a name is bound. -/
def contains (r : Record α) (key : String) : Bool := (r.get? key).isSome

/-- The bound names, in increasing order. -/
def keys (r : Record α) : List String := r.entries.map (·.1)

/-- How many names are bound. -/
def size (r : Record α) : Nat := r.entries.length

/-- Whether no name is bound. -/
def isEmpty (r : Record α) : Bool := r.entries.isEmpty

instance [DecidableEq α] : DecidableEq (Record α) := fun r s =>
  decidable_of_iff (r.entries = s.entries) (by cases r; cases s; simp)

@[ext] theorem ext {r s : Record α} (h : r.entries = s.entries) : r = s := by
  cases r; cases s; simp_all

@[simp] theorem get?_empty (k : String) : (empty : Record α).get? k = none := rfl

theorem get?_insert (r : Record α) (key k : String) (value : α) :
    (r.insert key value).get? k = if k = key then some value else r.get? k :=
  lookup_put key k value r.entries

@[simp] theorem get?_insert_self (r : Record α) (key : String) (value : α) :
    (r.insert key value).get? key = some value := by simp [get?_insert]

theorem get?_insert_of_ne {r : Record α} {key k : String} {value : α} (h : k ≠ key) :
    (r.insert key value).get? k = r.get? k := by simp [get?_insert, h]

theorem mem_of_mem_insertAll {es : List (String × α)} {r : Record α} {e : String × α}
    (h : e ∈ (r.insertAll es).entries) : e ∈ r.entries ∨ e ∈ es := by
  induction es generalizing r with
  | nil => exact .inl h
  | cons d rest ih =>
    rcases ih (r := r.insert d.1 d.2) h with h | h
    · rcases mem_of_mem_put h with rfl | h
      · exact .inr (List.mem_cons_self ..)
      · exact .inl h
    · exact .inr (List.mem_cons_of_mem _ h)

theorem mem_of_mem_ofList {es : List (String × α)} {e : String × α}
    (h : e ∈ (ofList es).entries) : e ∈ es :=
  (mem_of_mem_insertAll h).resolve_left (by simp [empty])

theorem mem_of_mem_erase {r : Record α} {key : String} {e : String × α}
    (h : e ∈ (r.erase key).entries) : e ∈ r.entries := (List.mem_filter.1 h).1

theorem mem_of_lookup {key : String} {value : α} {es : List (String × α)}
    (h : es.lookup key = some value) : (key, value) ∈ es := by
  induction es with
  | nil => simp at h
  | cons e rest ih =>
    rw [lookup_cons] at h
    split at h
    · next heq =>
      have hv : e.2 = value := Option.some.inj h
      exact heq ▸ hv ▸ List.mem_cons_self ..
    · exact List.mem_cons_of_mem _ (ih h)

theorem mem_of_get? {r : Record α} {key : String} {value : α} (h : r.get? key = some value) :
    (key, value) ∈ r.entries := mem_of_lookup h

theorem lookup_filter_ne (key k : String) (es : List (String × α)) :
    (es.filter (fun e => e.1 != key)).lookup k = if k = key then none else es.lookup k := by
  induction es with
  | nil => simp
  | cons e rest ih =>
    by_cases he : e.1 = key
    · rw [List.filter_cons_of_neg (by simp [he]), ih, lookup_cons]
      by_cases hk : k = key <;> simp [hk, he]
    · rw [List.filter_cons_of_pos (by simpa using he), lookup_cons, ih, lookup_cons]
      by_cases hk : k = e.1
      · simp [hk, he]
      · simp [hk]

theorem get?_erase (r : Record α) (key k : String) :
    (r.erase key).get? k = if k = key then none else r.get? k :=
  lookup_filter_ne key k r.entries

/-! ## Equality -/

/-- What an entry binds is found by its name, if no other entry has that name. -/
theorem lookup_of_mem {key : String} {value : α} {es : List (String × α)}
    (hes : es.Pairwise fun a b => a.1 ≠ b.1) (h : (key, value) ∈ es) :
    es.lookup key = some value := by
  induction es with
  | nil => simp at h
  | cons e rest ih =>
    obtain ⟨hne, hrest⟩ := List.pairwise_cons.1 hes
    rw [lookup_cons]
    rcases List.mem_cons.1 h with heq | h
    · rw [if_pos (congrArg Prod.fst heq)]
      exact congrArg some (congrArg Prod.snd heq).symm
    · rw [if_neg (hne (key, value) h).symm]
      exact ih hrest h

theorem distinct (r : Record α) : r.entries.Pairwise fun a b => a.1 ≠ b.1 :=
  r.increasing.imp String.ne_of_lt

theorem mem_entries_iff {r : Record α} {key : String} {value : α} :
    (key, value) ∈ r.entries ↔ r.get? key = some value :=
  ⟨lookup_of_mem r.distinct, mem_of_get?⟩

/-- The names of a record are those that are bound. -/
theorem mem_keys_iff {r : Record α} {key : String} :
    key ∈ r.keys ↔ ∃ value, r.get? key = some value := by
  simp [keys, ← mem_entries_iff]

theorem keys_increasing (r : Record α) : r.keys.Pairwise (· < ·) :=
  List.pairwise_map.2 r.increasing

/-- Two lists in increasing order with the same entries are equal. -/
theorem eq_of_mem_iff {es fs : List (String × α)} (hes : es.Pairwise fun a b => a.1 < b.1)
    (hfs : fs.Pairwise fun a b => a.1 < b.1) (h : ∀ e, e ∈ es ↔ e ∈ fs) : es = fs := by
  induction es generalizing fs with
  | nil => exact (List.eq_nil_iff_forall_not_mem.2 fun e he => nomatch (h e).2 he).symm
  | cons e es ih =>
    cases fs with
    | nil => exact absurd ((h e).1 (List.mem_cons_self ..)) List.not_mem_nil
    | cons f fs =>
      obtain ⟨hlt, hrest⟩ := List.pairwise_cons.1 hes
      obtain ⟨hlt', hrest'⟩ := List.pairwise_cons.1 hfs
      have hhead : e = f := by
        rcases List.mem_cons.1 ((h e).1 (List.mem_cons_self ..)) with heq | he
        · exact heq
        · rcases List.mem_cons.1 ((h f).2 (List.mem_cons_self ..)) with heq | hf
          · exact heq.symm
          · exact absurd (String.lt_trans (hlt' e he) (hlt f hf)) (String.lt_irrefl _)
      subst hhead
      refine congrArg (e :: ·) (ih hrest hrest' fun g => ⟨fun hg => ?_, fun hg => ?_⟩)
      · refine (List.mem_cons.1 ((h g).1 (List.mem_cons_of_mem _ hg))).resolve_left ?_
        rintro rfl
        exact String.lt_irrefl _ (hlt _ hg)
      · refine (List.mem_cons.1 ((h g).2 (List.mem_cons_of_mem _ hg))).resolve_left ?_
        rintro rfl
        exact String.lt_irrefl _ (hlt' _ hg)

/-- **Two records that bind the same names to the same values are equal.** -/
theorem ext_get? {r s : Record α} (h : ∀ key, r.get? key = s.get? key) : r = s := by
  refine ext (eq_of_mem_iff r.increasing s.increasing fun e => ?_)
  obtain ⟨key, value⟩ := e
  rw [mem_entries_iff, mem_entries_iff, h key]

/-! ## Binding a list of names -/

theorem lookup_eq_none {key : String} {es : List (String × α)} (h : ∀ e ∈ es, key ≠ e.1) :
    es.lookup key = none := by
  induction es with
  | nil => rfl
  | cons e rest ih =>
    rw [lookup_cons, if_neg (h e (List.mem_cons_self ..))]
    exact ih fun d hd => h d (List.mem_cons_of_mem _ hd)

theorem get?_insertAll {es : List (String × α)} (hes : es.Pairwise fun a b => a.1 ≠ b.1)
    (r : Record α) (k : String) : (r.insertAll es).get? k = (es.lookup k).or (r.get? k) := by
  induction es generalizing r with
  | nil => rfl
  | cons e rest ih =>
    obtain ⟨hne, hrest⟩ := List.pairwise_cons.1 hes
    have hstep : (r.insertAll (e :: rest)).get? k
        = (rest.lookup k).or ((r.insert e.1 e.2).get? k) := ih hrest _
    rw [hstep, get?_insert, lookup_cons]
    by_cases hk : k = e.1
    · have hnone : rest.lookup k = none := lookup_eq_none fun d hd => hk ▸ hne d hd
      simp [hk, hk ▸ hnone]
    · simp [hk]

theorem get?_union (r s : Record α) (k : String) :
    (r.union s).get? k = (s.get? k).or (r.get? k) := get?_insertAll s.distinct r k

/-- What is bound where one record lies over another: what the upper one binds, and of the lower one
what the upper one does not bind. -/
theorem get?_union_eq_some_iff {r s : Record α} {k : String} {v : α} :
    (r.union s).get? k = some v ↔ s.get? k = some v ∨ s.get? k = none ∧ r.get? k = some v := by
  rw [get?_union, Option.or_eq_some_iff]

theorem mem_ofList_iff {es : List (String × α)} (hes : es.Pairwise fun a b => a.1 ≠ b.1)
    {k : String} {v : α} : (k, v) ∈ (ofList es).entries ↔ (k, v) ∈ es := by
  rw [mem_entries_iff, ofList, get?_insertAll hes, get?_empty, Option.or_none]
  exact ⟨mem_of_lookup, lookup_of_mem hes⟩

@[simp] theorem ofList_entries (r : Record α) : ofList r.entries = r := by
  refine ext_get? fun key => ?_
  have hlist := get?_insertAll r.distinct empty key
  rw [get?_empty, Option.or_none] at hlist
  exact hlist

end Record

end WorkflowEngine
