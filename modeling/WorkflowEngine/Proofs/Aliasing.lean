import Mathlib.Data.List.Induction
import WorkflowEngine.Context.Session

/-!
# Who shares a context with whom

Sessions are looked at from outside: which names stand for one context, and what each name shows.

**Provenance.** A command lets a name keep its handle, hands a handle on to it from another name
(cloning and extending do), or gives it a new one (`Command.origin`). Two names share their context
iff their handles come, in this way, from one handle that some name had at some moment (`Obtained`).

**Contents.** What a name shows after a command depends on what its own context showed before, and
is changed by a write only if the writer shares that context (`Session.view_run`). Reading is a
matter of what is shown, so a copy notices nothing of what is done to the original, nor the other
way round.

**Equality.** Two handles are equal iff they show the same names, bound to values that are the same
up to the signs of zeros.

**Invariant (`Session.Sound`).** Every handle with a name is on a context of the store. So a handle
that a command makes is none of those that have names.
-/

namespace WorkflowEngine

/-! ## Equal values -/

/-- The number without the sign of a zero. -/
def Double.unsigned (d : Double) : Double := if d.isZero then .zero false else d

theorem Double.agrees_iff {d e : Double} : d.agrees e ↔ d.unsigned = e.unsigned := by
  have hzero : ∀ x : Double, x = .zero false → x.isZero := by
    rintro _ rfl
    rfl
  by_cases hd : d.isZero <;> by_cases he : e.isZero
  · simp [agrees, unsigned, hd, he]
  · have hne : d ≠ e := fun h => he (h ▸ hd)
    have hne' : zero false ≠ e := fun h => he (hzero e h.symm)
    simp [agrees, unsigned, hd, he, hne, hne']
  · have hne : d ≠ e := fun h => hd (h ▸ he)
    have hne' : d ≠ zero false := fun h => hd (hzero d h)
    simp [agrees, unsigned, hd, he, hne, hne']
  · simp [agrees, unsigned, hd, he]

/-- The number without the sign of a zero. -/
def Number.unsigned : Number → Number
  | .int i => .int i
  | .double d => .double d.unsigned

theorem Number.agrees_iff {a b : Number} : a.agrees b ↔ a.unsigned = b.unsigned := by
  cases a <;> cases b <;> simp [agrees, unsigned, Double.agrees_iff]

namespace Value

mutual

/-- The value without the signs of zeros. -/
def unsigned : Value → Value
  | .number n => .number n.unsigned
  | .array items => .array (unsignedItems items)
  | .object fields => .object (unsignedFields fields)
  | v => v

def unsignedItems : List Value → List Value
  | [] => []
  | v :: vs => unsigned v :: unsignedItems vs

def unsignedFields : List (String × Value) → List (String × Value)
  | [] => []
  | (k, v) :: fs => (k, unsigned v) :: unsignedFields fs

end

mutual

/-- **Values agree iff they are equal up to the signs of zeros.** -/
theorem agrees_iff : (v w : Value) → (v.agrees w ↔ v.unsigned = w.unsigned)
  | .number a, .number b => by simp [agrees, unsigned, Number.agrees_iff]
  | .array vs, .array ws => by simp [agrees, unsigned, agreesItems_iff vs ws]
  | .object fs, .object gs => by simp [agrees, unsigned, agreesFields_iff fs gs]
  | .null, w => by cases w <;> simp [agrees, unsigned]
  | .bool _, w => by cases w <;> simp [agrees, unsigned]
  | .string _, w => by cases w <;> simp [agrees, unsigned]
  | .number _, .null | .number _, .bool _ | .number _, .string _ | .number _, .array _
  | .number _, .object _ | .array _, .null | .array _, .bool _ | .array _, .number _
  | .array _, .string _ | .array _, .object _ | .object _, .null | .object _, .bool _
  | .object _, .number _ | .object _, .string _ | .object _, .array _ => by simp [agrees, unsigned]

theorem agreesItems_iff : (vs ws : List Value) →
    (agreesItems vs ws ↔ unsignedItems vs = unsignedItems ws)
  | [], [] => by simp [agreesItems]
  | [], _ :: _ | _ :: _, [] => by simp [agreesItems, unsignedItems]
  | v :: vs, w :: ws => by simp [agreesItems, unsignedItems, agrees_iff v w, agreesItems_iff vs ws]

theorem agreesFields_iff : (fs gs : List (String × Value)) →
    (agreesFields fs gs ↔ unsignedFields fs = unsignedFields gs)
  | [], [] => by simp [agreesFields]
  | [], (_, _) :: _ | (_, _) :: _, [] => by simp [agreesFields, unsignedFields]
  | (k, v) :: fs, (l, w) :: gs => by
    simp [agreesFields, unsignedFields, agrees_iff v w, agreesFields_iff fs gs, and_assoc]

end

theorem unsignedFields_eq_map (fields : List (String × Value)) :
    unsignedFields fields = fields.map fun e => (e.1, e.2.unsigned) := by
  induction fields with
  | nil => rfl
  | cons e fs ih => simp [unsignedFields, ih]

theorem lookup_unsignedFields (fields : List (String × Value)) (key : String) :
    (unsignedFields fields).lookup key = (fields.lookup key).map unsigned := by
  induction fields with
  | nil => rfl
  | cons e fs ih =>
    rw [unsignedFields, Record.lookup_cons, Record.lookup_cons, ih]
    by_cases hkey : key = e.1 <;> simp [hkey]

end Value

namespace Bindings

/-- The bindings without the signs of zeros. -/
def unsigned (b : Bindings) : Bindings where
  entries := Value.unsignedFields b.entries
  increasing := by
    rw [Value.unsignedFields_eq_map, List.pairwise_map]
    exact b.increasing

/-- **Bindings agree iff they bind the same names to values that are equal up to the signs of
zeros.** -/
theorem agrees_iff {b c : Bindings} :
    b.agrees c ↔ ∀ key, (b.get? key).map Value.unsigned = (c.get? key).map Value.unsigned := by
  have hget : ∀ (d : Bindings) key, d.unsigned.get? key = (d.get? key).map Value.unsigned :=
    fun d key => Value.lookup_unsignedFields d.entries key
  rw [agrees, Value.agreesFields_iff]
  constructor
  · intro h key
    have heq : b.unsigned = c.unsigned := Record.ext h
    rw [← hget, ← hget, heq]
  · intro h
    have heq : b.unsigned = c.unsigned := Record.ext_get? fun key => by rw [hget, hget, h key]
    exact congrArg Record.entries heq

theorem agrees_self (b : Bindings) : b.agrees b := agrees_iff.2 fun _ => rfl

end Bindings

/-! ## Where handles come from -/

namespace Command

/-- The name whose context the command is about. -/
def name : Command → String
  | .fresh name | .seed name _ | .set name _ _ | .remove name _ | .clone name _
  | .extend name _ _ _ | .copy name _ | .derive name _ _ _ => name

/-- The name from which a name has its handle after the command; none if the handle is a new one. -/
def origin (c : Command) (m : String) : Option String :=
  match c with
  | .fresh name | .seed name _ => if m = name then none else some m
  | .set .. | .remove .. => some m
  | .clone name target | .extend name target _ _ => if m = target then some name else some m
  | .copy _ target | .derive _ target _ _ => if m = target then none else some m

/-- The handle of any other name than that of the command stays where it is. -/
theorem eq_of_origin {c : Command} {m x : String} (ho : c.origin m = some x) (hx : x ≠ c.name) :
    m = x := by
  cases c with
  | clone name target | extend name target key value =>
    simp only [origin] at ho
    split at ho
    · exact absurd (Option.some.inj ho).symm hx
    · exact Option.some.inj ho
  | set | remove => exact Option.some.inj ho
  | fresh name | seed name b | copy _ target | derive _ target key value =>
    exact (by simpa [origin] using ho : _ ∧ m = x).2

/-- What the command does to the bindings of its name. -/
def write : Command → Bindings → Bindings
  | .set _ key value | .extend _ _ key value => (·.insert key value)
  | .remove _ key => (·.erase key)
  | .fresh _ | .seed .. | .clone .. | .copy .. | .derive .. => id

/-- What a new context binds that the command makes, by the bindings of its name. -/
def start : Command → Bindings → Bindings
  | .seed _ b => fun _ => b
  | .copy .. => id
  | .derive _ _ key value => (·.insert key value)
  | _ => fun _ => .empty

end Command

/-- The handle of a name after a history has come down from the one that a name had at an earlier
moment: no command since then has put a new one in its place. -/
inductive Obtained (earlier : List Command) (k : String) : List Command → String → Prop
  | self : Obtained earlier k earlier k
  | passed {history : List Command} {c : Command} {x m : String} :
      Obtained earlier k history x → c.origin m = some x → Obtained earlier k (history ++ [c]) m

theorem Obtained.length_le {earlier history : List Command} {k n : String}
    (h : Obtained earlier k history n) : earlier.length ≤ history.length := by
  induction h with
  | self => exact Nat.le_refl _
  | passed _ _ ih => exact Nat.le_trans ih (by simp)

namespace Session

/-- The session after a history of commands. -/
def after (history : List Command) : Session := history.foldl run {}

theorem after_concat (history : List Command) (c : Command) :
    after (history ++ [c]) = (after history).run c := by simp [after]

/-- Handles with names are on contexts of the store. -/
def Sound (s : Session) : Prop := ∀ m h, s.names.get? m = some h → s.store.Valid h

variable {s : Session} {c : Command} {m n x : String} {h : Handle}

/-! ## First uses -/

theorem handle_of_get? (hm : s.names.get? m = some h) : s.handle m = h := by simp [handle, hm]

theorem get?_create (s : Session) (n m : String) (b : Bindings) :
    (s.create n b).names.get? m = if m = n then some (s.store.create b).1 else s.names.get? m :=
  Record.get?_insert ..

theorem Sound.create (hs : s.Sound) (n : String) (b : Bindings) : (s.create n b).Sound := by
  intro m h hm
  rw [get?_create] at hm
  refine Store.valid_create.2 ?_
  split at hm
  · exact .inr (Option.some.inj hm).symm
  · exact .inl (hs m h hm)

theorem Sound.eq_of_get?_create (hs : s.Sound) {b : Bindings}
    (hm : (s.create n b).names.get? m = some (s.store.create b).1) : m = n := by
  rw [get?_create] at hm
  split at hm
  · assumption
  · exact absurd (hs m _ hm) Store.not_valid_create

/-- A first use gives a name the handle that it counts as having anyway. -/
theorem get?_touch (s : Session) (n m : String) :
    (s.touch n).names.get? m = if m = n then some (s.handle n) else s.names.get? m := by
  cases hn : s.names.get? n with
  | none =>
    have hhandle : s.handle n = (s.store.create .empty).1 := by simp [handle, hn, Store.create]
    rw [touch, Record.contains, hn, hhandle]
    exact get?_create s n m .empty
  | some h =>
    rw [touch, Record.contains, hn, handle_of_get? hn]
    by_cases hm : m = n
    · simp [hm, hn]
    · simp [hm]

theorem handle_touch (s : Session) (n : String) : (s.touch n).handle n = s.handle n :=
  handle_of_get? (by rw [get?_touch, if_pos rfl])

theorem Sound.touch (hs : s.Sound) (n : String) : (s.touch n).Sound := by
  rw [Session.touch]
  split
  · exact hs
  · exact hs.create n .empty

theorem Sound.valid_touch (hs : s.Sound) (n : String) : (s.touch n).store.Valid (s.handle n) :=
  hs.touch n n _ (by rw [get?_touch, if_pos rfl])

theorem valid_touch_of_valid (n : String) (hh : s.store.Valid h) : (s.touch n).store.Valid h := by
  rw [touch]
  split
  · exact hh
  · exact Store.valid_create.2 (.inl hh)

/-- A context that has not been made shows nothing, and so does one that has just been. -/
theorem view_touch (s : Session) (n : String) (h : Handle) :
    (s.touch n).store.view h = s.store.view h := by
  rw [touch]
  split
  · rfl
  · by_cases hh : s.store.Valid h
    · exact Store.view_create_of_valid hh _
    · have hh : s.store.cells.size ≤ h.index := Nat.not_lt.1 hh
      simp only [create, Store.create, Store.view, Array.getElem?_push, Array.getElem?_eq_none hh]
      split <;> rfl

/-! ## One command -/

/-- A name has the handle of the name from which it has it, one made now if that one had none. -/
theorem get?_run (ho : c.origin m = some x) :
    (s.run c).names.get? m = if x = c.name then some (s.handle c.name) else s.names.get? x := by
  cases c with
  | fresh name | seed name b =>
    obtain ⟨hm, rfl⟩ : m ≠ name ∧ m = x := by simpa [Command.origin] using ho
    simp [run, Command.name, get?_create, hm]
  | set name key value | remove name key =>
    obtain rfl : m = x := by simpa [Command.origin] using ho
    exact get?_touch s name m
  | clone name target | extend name target key value =>
    simp only [run, Command.name, Record.get?_insert, handle_touch]
    simp only [Command.origin] at ho
    split at ho
    · next hm =>
      obtain rfl := Option.some.inj ho
      simp [hm]
    · next hm =>
      obtain rfl := Option.some.inj ho
      rw [if_neg hm]
      exact get?_touch s name m
  | copy name target | derive name target key value =>
    obtain ⟨hm, rfl⟩ : m ≠ target ∧ m = x := by simpa [Command.origin] using ho
    simp only [run, Command.name, get?_create, if_neg hm]
    exact get?_touch s name m

/-- A name without a handle from before has a new one: no other name has it, and it is on a context
that starts as the command says. -/
theorem get?_run_new (hs : s.Sound) (ho : c.origin m = none) :
    ∃ h, (s.run c).names.get? m = some h ∧ (s.run c).store.view h = c.start (s.view c.name) ∧
      ∀ k, (s.run c).names.get? k = some h → k = m := by
  cases c with
  | fresh name | seed name b =>
    obtain rfl : m = name := by simpa [Command.origin] using ho
    exact ⟨_, by simp [run, get?_create], Store.view_create_self .., fun k => hs.eq_of_get?_create⟩
  | set | remove => cases ho
  | clone name target | extend name target key value =>
    simp only [Command.origin] at ho
    split at ho <;> cases ho
  | copy name target | derive name target key value =>
    obtain rfl : m = target := by simpa [Command.origin] using ho
    refine ⟨_, by simp [run, get?_create], ?_, fun k => (hs.touch name).eq_of_get?_create⟩
    have hview : (s.touch name).view name = s.view name := by
      rw [view, handle_touch, view_touch, view]
    exact (Store.view_create_self ..).trans (by rw [hview]; rfl)

theorem Sound.run (hs : s.Sound) (c : Command) : (s.run c).Sound := by
  cases c with
  | fresh name => exact hs.create name .empty
  | seed name b => exact hs.create name b
  | set name key value | remove name key =>
    exact fun m h hm => Store.valid_update.2 (hs.touch name m h hm)
  | clone name target | extend name target key value =>
    intro m h hm
    have hvalid : (s.touch name).store.Valid h := by
      simp only [Session.run, Record.get?_insert, handle_touch] at hm
      split at hm
      · exact Option.some.inj hm ▸ hs.valid_touch name
      · exact hs.touch name m h hm
    first
      | exact hvalid
      | exact Store.valid_update.2 hvalid
  | copy name target | derive name target key value => exact (hs.touch name).create target _

theorem sound_after (history : List Command) : (after history).Sound := by
  induction history using List.reverseRecOn with
  | nil => exact fun m h hm => nomatch hm
  | append_singleton history c ih => exact after_concat history c ▸ ih.run c

/-- A name that has its handle from another stands for the context of that one. -/
theorem handle_run (ho : c.origin m = some x) (hm : (s.run c).names.contains m) :
    (s.run c).handle m = s.handle x := by
  obtain ⟨h, hh⟩ := Option.isSome_iff_exists.1 hm
  rw [handle_of_get? hh]
  rw [get?_run ho] at hh
  split at hh
  · next hx => exact hx ▸ (Option.some.inj hh).symm
  · exact (handle_of_get? hh).symm

/-- Its context has been there before, unless it is made for the name of the command. -/
theorem valid_of_run (hs : s.Sound) (ho : c.origin m = some x) (hm : (s.run c).names.contains m) :
    x = c.name ∨ s.store.Valid (s.handle x) := by
  refine or_iff_not_imp_left.2 fun hx => ?_
  obtain ⟨h, hh⟩ := Option.isSome_iff_exists.1 hm
  rw [get?_run ho, if_neg hx] at hh
  exact handle_of_get? hh ▸ hs x h hh

theorem view_update_touch (hs : s.Sound) (n : String) (f : Bindings → Bindings) (h : Handle) :
    ((s.touch n).store.update ((s.touch n).handle n) f).view h =
      if s.handle n == h then f (s.store.view h) else s.store.view h := by
  rw [handle_touch]
  by_cases hh : h = s.handle n
  · rw [hh, Store.view_update_self (hs.valid_touch n), view_touch]
    simp
  · rw [Store.view_update_of_ne hh, view_touch, if_neg (by simpa using Ne.symm hh)]

/-- **A write through one name shows through those that share its context, and through no other.**
No other command changes what a name shows whose handle was there before. -/
theorem view_run (hs : s.Sound) (ho : c.origin m = some x) (hm : (s.run c).names.contains m) :
    (s.run c).view m = if s.shares c.name x then c.write (s.view x) else s.view x := by
  have hvalid := valid_of_run hs ho hm
  rw [view, handle_run ho hm]
  cases c with
  | fresh name | seed name b =>
    obtain ⟨hne, rfl⟩ : m ≠ name ∧ m = x := by simpa [Command.origin] using ho
    rw [Command.write, id, ite_self]
    exact Store.view_create_of_valid (hvalid.resolve_left hne) _
  | set name key value | remove name key | extend name target key value =>
    exact view_update_touch hs name _ (s.handle x)
  | clone name target =>
    rw [Command.write, id, ite_self]
    exact view_touch s name (s.handle x)
  | copy name target | derive name target key value =>
    rw [Command.write, id, ite_self]
    refine (Store.view_create_of_valid ?_ _).trans (view_touch s name (s.handle x))
    rcases hvalid with hx | hvalid
    · obtain rfl : x = name := hx
      exact hs.valid_touch x
    · exact valid_touch_of_valid name hvalid

/-! ## Whole histories -/

theorem get?_eq_of_handle_eq (hs : s.Sound) (heq : s.handle n = s.handle m) :
    s.names.get? n = s.names.get? m := by
  have hnone : ∀ k, s.names.get? k = none → ¬s.store.Valid (s.handle k) := fun k hk => by
    simp [handle, hk, Store.Valid]
  cases hn : s.names.get? n with
  | none =>
    cases hm : s.names.get? m with
    | none => rfl
    | some h => exact absurd (handle_of_get? hm ▸ hs m h hm) (heq ▸ hnone n hn)
  | some h =>
    cases hm : s.names.get? m with
    | none => exact absurd (handle_of_get? hn ▸ hs n h hn) (heq ▸ hnone m hm)
    | some h' => rw [← handle_of_get? hn, ← handle_of_get? hm, heq]

/-- Names with one handle have it from one moment and one name. -/
theorem exists_obtained {history : List Command} (hn : (after history).names.get? n = some h)
    (hm : (after history).names.get? m = some h) :
    ∃ earlier k, Obtained earlier k history n ∧ Obtained earlier k history m := by
  induction history using List.reverseRecOn generalizing n m h with
  | nil => cases hn
  | append_singleton history c ih =>
    rw [after_concat] at hn hm
    have hs := sound_after history
    cases hon : c.origin n with
    | none =>
      obtain ⟨new, hnew, -, hunique⟩ := get?_run_new hs hon
      obtain rfl : m = n := hunique m (by rw [hm, ← hn, hnew])
      exact ⟨_, _, .self, .self⟩
    | some x =>
      cases hom : c.origin m with
      | none =>
        obtain ⟨new, hnew, -, hunique⟩ := get?_run_new hs hom
        obtain rfl : n = m := hunique n (by rw [hn, ← hm, hnew])
        exact ⟨_, _, .self, .self⟩
      | some y =>
        have hhandle : (after history).handle x = (after history).handle y := by
          rw [← handle_run hon (by simp [Record.contains, hn]), handle_of_get? hn,
            ← handle_run hom (by simp [Record.contains, hm]), handle_of_get? hm]
        have hget := get?_eq_of_handle_eq hs hhandle
        cases hy : (after history).names.get? y with
        | some h' =>
          obtain ⟨earlier, k, hx, hy⟩ := ih (hget.trans hy) hy
          exact ⟨earlier, k, .passed hx hon, .passed hy hom⟩
        | none =>
          -- only the name of the command can have got its handle just now
          have hname : ∀ {k z}, c.origin k = some z → (after history).names.get? z = none →
              ((after history).run c).names.get? k = some h → z = c.name := by
            intro k z hk hz hheld
            rw [get?_run hk] at hheld
            split at hheld
            · assumption
            · exact absurd (hz.symm.trans hheld) nofun
          obtain rfl : x = y := (hname hon (hget.trans hy) hn).trans (hname hom hy hm).symm
          exact ⟨history, x, .passed .self hon, .passed .self hom⟩

/-- What comes down from one handle is one handle, once it is in use. -/
theorem eq_or_get?_of_obtained {earlier history : List Command} {k : String}
    (hn : Obtained earlier k history n) (hm : Obtained earlier k history m) :
    n = m ∨ ∃ h, (after history).names.get? n = some h ∧ (after history).names.get? m = some h := by
  induction hn generalizing m with
  | self =>
    cases hm with
    | self => exact .inl rfl
    | passed hx _ => exact absurd hx.length_le (by simp)
  | @passed history c x n hx hon ih =>
    generalize hwhole : history ++ [c] = whole at hm
    cases hm with
    | self => exact absurd hx.length_le (by simp [← hwhole])
    | @passed history' c' y m hy hom =>
      obtain ⟨rfl, hc⟩ := List.append_inj' hwhole rfl
      obtain rfl : c = c' := by simpa using hc
      rw [after_concat, get?_run hon, get?_run hom]
      rcases ih hy with rfl | ⟨h, hx, hy⟩
      · cases hget : if x = c.name then some ((after history).handle c.name)
            else (after history).names.get? x with
        | some h => exact .inr ⟨h, rfl, rfl⟩
        | none =>
          have hne : x ≠ c.name := by
            rintro rfl
            simp at hget
          exact .inl ((Command.eq_of_origin hon hne).trans (Command.eq_of_origin hom hne).symm)
      · have hsame : ∀ z, (after history).names.get? z = some h →
            (if z = c.name then some ((after history).handle c.name)
              else (after history).names.get? z) = some h := by
          intro z hz
          split
          · next hname => rw [← hname, handle_of_get? hz]
          · exact hz
        exact .inr ⟨h, hsame x hx, hsame y hy⟩

/-- **Names share a context iff their handles have come down from one handle.** -/
theorem shares_iff {history : List Command} (hn : (after history).names.contains n)
    (hm : (after history).names.contains m) :
    (after history).shares n m ↔
      ∃ earlier k, Obtained earlier k history n ∧ Obtained earlier k history m := by
  rw [shares, beq_iff_eq]
  constructor
  · intro heq
    obtain ⟨h, hh⟩ := Option.isSome_iff_exists.1 hn
    exact exists_obtained hh (get?_eq_of_handle_eq (sound_after history) heq ▸ hh)
  · rintro ⟨earlier, k, hn, hm⟩
    rcases eq_or_get?_of_obtained hn hm with rfl | ⟨h, hn, hm⟩
    · rfl
    · rw [handle_of_get? hn, handle_of_get? hm]

theorem agrees_iff : s.agrees n m ↔
    ∀ key, ((s.view n).get? key).map Value.unsigned = ((s.view m).get? key).map Value.unsigned := by
  rw [← Bindings.agrees_iff, agrees, Store.agrees, Bool.or_eq_true, beq_iff_eq]
  refine or_iff_right_of_imp fun heq => ?_
  rw [heq]
  exact Bindings.agrees_self _

end Session

/-- **Sharing and copying.** After any history:

* two names stand for one context iff their handles have come down from one handle;
* what a name shows after one more command is what its handle has shown before, changed by the
  command if that writes, and through a name that shares the context; or what a new context starts
  with;
* and two handles are equal iff what they show is. -/
theorem Session.shares_and_shows (history : List Command) :
    (∀ n m, (after history).names.contains n → (after history).names.contains m →
      ((after history).shares n m ↔
        ∃ earlier k, Obtained earlier k history n ∧ Obtained earlier k history m)) ∧
    (∀ (c : Command) (m : String), (after (history ++ [c])).names.contains m →
      (after (history ++ [c])).view m =
        match c.origin m with
        | some x =>
          if (after history).shares c.name x then c.write ((after history).view x)
          else (after history).view x
        | none => c.start ((after history).view c.name)) ∧
    ∀ n m, (after history).agrees n m ↔ ∀ key,
      (((after history).view n).get? key).map Value.unsigned =
        (((after history).view m).get? key).map Value.unsigned := by
  refine ⟨fun n m hn hm => shares_iff hn hm, fun c m hm => ?_, fun n m => agrees_iff⟩
  have hs := sound_after history
  rw [after_concat] at hm ⊢
  cases ho : c.origin m with
  | some x => exact view_run hs ho hm
  | none =>
    obtain ⟨h, hh, hview, -⟩ := get?_run_new hs ho
    rw [view, handle_of_get? hh, hview]

/-- A context under two names, and a copy that is written to. -/
def Session.copied : List Command :=
  [.extend "base" "alias" "x" (.int 1), .copy "alias" "copy", .set "copy" "y" (.int 2)]

theorem Session.shares_and_shows_of_copied :
    (∃ earlier k, Obtained earlier k copied "base" ∧ Obtained earlier k copied "alias") ∧
    (¬∃ earlier k, Obtained earlier k copied "base" ∧ Obtained earlier k copied "copy") ∧
    (after (copied ++ [.set "base" "x" .null])).view "alias" =
      ((after copied).view "alias").insert "x" .null ∧
    (after (copied ++ [.set "base" "x" .null])).view "copy" = (after copied).view "copy" ∧
    (after copied).agrees "base" "copy" = false := by
  obtain ⟨hshares, hview, hagrees⟩ := shares_and_shows copied
  have halias : (after copied).shares "base" "alias" := by decide
  have hcopy : ¬(after copied).shares "base" "copy" := by decide
  refine ⟨(hshares _ _ (by decide) (by decide)).1 halias,
    fun h => hcopy ((hshares _ _ (by decide) (by decide)).2 h), ?_, ?_, ?_⟩
  · exact (hview _ _ (by decide)).trans (if_pos halias)
  · exact (hview _ _ (by decide)).trans (if_neg hcopy)
  · refine Bool.eq_false_iff.2 fun h => ?_
    have hy := (hagrees _ _).1 h "y"
    exact absurd hy (by decide)

end WorkflowEngine
