import WorkflowEngine.Json.Reader

/-!
# The grammar of JSON

What a JSON text is, and which value it denotes, said without a reader. Blanks may stand around
every value, before and behind every comma, colon and bracket, and nowhere else.

* `NumberText` — the written forms of numbers.
* `Characters` — the written forms of a text, between its quotes. Half a surrogate pair is none.
* `Denotes n t v` — the text `t`, without blanks around it, denotes `v`, with arrays and objects
  nested at most `n` deep. `Padded` is the same with blanks around it.

Which number a written form stands for is left to `Numeral.ofText?`, since that is a matter of
rounding; a form that stands for none is too large. Of two fields with one key the later stays.
-/

namespace WorkflowEngine.Json

/-- Nothing but blanks. -/
def Blanks (t : List Char) : Prop := ∀ c ∈ t, State.isBlank c = true

/-! ## Numbers -/

/-- At least one digit, and nothing but digits. -/
def Digits (t : List Char) : Prop := t ≠ [] ∧ ∀ c ∈ t, c.isDigit = true

/-- The part of a number before the point: a zero stands there only by itself. -/
def WholeText (t : List Char) : Prop := t = ['0'] ∨ (Digits t ∧ t.head? ≠ some '0')

/-- The part of a number from the point on, if there is a point. -/
def PlacesText (t : List Char) : Prop := t = [] ∨ ∃ ds, t = '.' :: ds ∧ Digits ds

/-- The power of ten behind its mark, with or without a sign. -/
def PowerDigits (t : List Char) : Prop :=
  Digits t ∨ ∃ c ds, t = c :: ds ∧ (c = '+' ∨ c = '-') ∧ Digits ds

/-- The part of a number from the mark of a power of ten on, if there is one. -/
def PowerText (t : List Char) : Prop :=
  t = [] ∨ ∃ c ds, t = c :: ds ∧ (c = 'e' ∨ c = 'E') ∧ PowerDigits ds

/-- The written form of a number without its sign. -/
def UnsignedText (t : List Char) : Prop :=
  ∃ whole places power, t = whole ++ (places ++ power) ∧ WholeText whole ∧ PlacesText places ∧
    PowerText power

/-- The written form of a number. -/
def NumberText (t : List Char) : Prop := UnsignedText t ∨ ∃ u, t = '-' :: u ∧ UnsignedText u

namespace Numeral

/-- The number with some more characters read. -/
def reads (n : Numeral) (t : List Char) : Option Numeral := t.foldlM next? n

/-- The number that is written. -/
def ofText? : List Char → Option Numeral
  | [] => none
  | c :: t => (start? c).bind (·.reads t)

end Numeral

/-! ## Strings -/

/-- The code that four hexadecimal digits stand for. -/
def Code (t : List Char) (code : Nat) : Prop := t.length = 4 ∧ Text.natural? 16 t = some code

/-- The code is the first half of a surrogate pair. -/
def IsHigh (code : Nat) : Prop := 0xd800 ≤ code ∧ code ≤ 0xdbff

/-- The code is the second half of a surrogate pair. -/
def IsLow (code : Nat) : Prop := 0xdc00 ≤ code ∧ code ≤ 0xdfff

/-- The character that a surrogate pair stands for. -/
def paired (high low : Nat) : Char :=
  Char.ofNat (0x10000 + (high - 0xd800) * 0x400 + (low - 0xdc00))

/-- The written form of some characters inside a string. -/
inductive Characters : List Char → List Char → Prop
  | nil : Characters [] []
  | plain {c : Char} {t s : List Char} :
      c ≠ '"' → c ≠ '\\' → 32 ≤ c.toNat → Characters t s → Characters (c :: t) (c :: s)
  | escape {c e : Char} {t s : List Char} :
      Quote.unescape? c = some e → Characters t s → Characters ('\\' :: c :: t) (e :: s)
  | code {digits t s : List Char} {code : Nat} :
      Code digits code → ¬IsHigh code → ¬IsLow code → Characters t s →
      Characters ('\\' :: 'u' :: (digits ++ t)) (Char.ofNat code :: s)
  | pair {digits digits' t s : List Char} {high low : Nat} :
      Code digits high → IsHigh high → Code digits' low → IsLow low → Characters t s →
      Characters ('\\' :: 'u' :: (digits ++ '\\' :: 'u' :: (digits' ++ t))) (paired high low :: s)

/-! ## Values -/

mutual

/-- The text denotes the value, with arrays and objects nested at most so deep. -/
inductive Denotes : Nat → List Char → Value → Prop
  | nullWord {n : Nat} : Denotes n ['n', 'u', 'l', 'l'] .null
  | trueWord {n : Nat} : Denotes n ['t', 'r', 'u', 'e'] (.bool true)
  | falseWord {n : Nat} : Denotes n ['f', 'a', 'l', 's', 'e'] (.bool false)
  | number {n : Nat} {t : List Char} {m : Numeral} {x : Number} :
      NumberText t → Numeral.ofText? t = some m → m.draft = .scalar (.number x) →
      Denotes n t (.number x)
  | string {n : Nat} {t s : List Char} :
      Characters t s → Denotes n ('"' :: (t ++ ['"'])) (.string (String.ofList s))
  | emptyArray {n : Nat} {b : List Char} :
      Blanks b → Denotes (n + 1) ('[' :: (b ++ [']'])) (.array [])
  | array {n : Nat} {t : List Char} {vs : List Value} :
      Items n t vs → Denotes (n + 1) ('[' :: (t ++ [']'])) (.array vs)
  | emptyObject {n : Nat} {b : List Char} :
      Blanks b → Denotes (n + 1) ('{' :: (b ++ ['}'])) (.ofRecord .empty)
  | object {n : Nat} {t : List Char} {fs : List (String × Value)} :
      Fields n t fs → Denotes (n + 1) ('{' :: (t ++ ['}'])) (.ofRecord (.ofList fs))

/-- The text denotes the value, with blanks around it. -/
inductive Padded : Nat → List Char → Value → Prop
  | mk {n : Nat} {b t b' : List Char} {v : Value} :
      Blanks b → Denotes n t v → Blanks b' → Padded n (b ++ (t ++ b')) v

/-- The items of an array, with commas between them. -/
inductive Items : Nat → List Char → List Value → Prop
  | one {n : Nat} {t : List Char} {v : Value} : Padded n t v → Items n t [v]
  | more {n : Nat} {t u : List Char} {v : Value} {vs : List Value} :
      Padded n t v → Items n u vs → Items n (t ++ ',' :: u) (v :: vs)

/-- One field of an object: its key, a colon and its value. -/
inductive Field : Nat → List Char → String × Value → Prop
  | mk {n : Nat} {b key s b' t : List Char} {v : Value} :
      Blanks b → Characters key s → Blanks b' → Padded n t v →
      Field n (b ++ '"' :: (key ++ '"' :: (b' ++ ':' :: t))) (String.ofList s, v)

/-- The fields of an object, with commas between them. -/
inductive Fields : Nat → List Char → List (String × Value) → Prop
  | one {n : Nat} {t : List Char} {f : String × Value} : Field n t f → Fields n t [f]
  | more {n : Nat} {t u : List Char} {f : String × Value} {fs : List (String × Value)} :
      Field n t f → Fields n u fs → Fields n (t ++ ',' :: u) (f :: fs)

end

/-! ## Blanks -/

theorem blanks_nil : Blanks [] := fun _ h => nomatch h

theorem blanks_cons {c : Char} {t : List Char} :
    Blanks (c :: t) ↔ State.isBlank c = true ∧ Blanks t := by
  simp [Blanks]

end WorkflowEngine.Json
