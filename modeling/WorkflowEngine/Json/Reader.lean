import WorkflowEngine.Json.Draft
import WorkflowEngine.Text.Digits

/-!
# Reading JSON, one character at a time

The reader is an automaton. Its state holds the arrays and objects that are still open, innermost
first, and the spot inside the innermost one: what may come next, or how much of a number, a word or
a string has been read. Each character either moves it on (`State.step`) or ends the reading; the
end of the text ends it too (`State.stop`). Because the state says everything, `read` is a plain
recursion on the text.

**Strings.** Half a surrogate pair spells no character and makes its string a flaw. A `\u` with
fewer than four bytes of text after it is an unfinished text, whatever these bytes are.

**Numbers.** A number ends at the first character that cannot continue it. Its digits are taken into
the significand as long as that has 64 bits. The first digit of the whole part that does not fit,
and all after it in this part, only raise the power of ten; the first digit after the point that
does not fit, and all after it, are not looked at.
-/

namespace WorkflowEngine.Json

/-! ## Numbers -/

/-- How far a number has been read. -/
inductive Numeral.Phase where
  | sign | zero | whole | point | places | mark | markSign | power
deriving DecidableEq

/-- A number that is being read. -/
structure Numeral where
  phase : Numeral.Phase
  negative : Bool := false
  significand : Nat := 0
  /-- The power of ten that the digits ask for. -/
  shift : Int := 0
  /-- Whether a digit of this part did not fit into the significand. -/
  full : Bool := false
  powerNegative : Bool := false
  power : Nat := 0

namespace Numeral

/-- The value of a decimal digit. -/
def digit (c : Char) : Nat := c.toNat - '0'.toNat

/-- The first character of a number. -/
def start? (c : Char) : Option Numeral :=
  if c = '-' then some { phase := .sign, negative := true }
  else if c = '0' then some { phase := .zero }
  else if c.isDigit then some { phase := .whole, significand := digit c }
  else none

/-- The number with one more digit, unless there is no room for it. -/
def append? (n : Numeral) (c : Char) : Option Numeral :=
  let significand := 10 * n.significand + digit c
  if n.full || Number.wordBound ≤ significand then none else some { n with significand }

/-- Reads a digit before the point. -/
def wholeDigit (n : Numeral) (c : Char) : Numeral :=
  (n.append? c).getD { n with full := true, shift := n.shift + 1 }

/-- Reads a digit after the point. -/
def place (n : Numeral) (c : Char) : Numeral :=
  match n.append? c with
  | some m => { m with shift := n.shift - 1 }
  | none => { n with full := true }

/-- Reads one more character of a number. -/
def next? (n : Numeral) (c : Char) : Option Numeral :=
  let mark := c = 'e' ∨ c = 'E'
  match n.phase with
  | .sign =>
    if c = '0' then some { n with phase := .zero }
    else if c.isDigit then some { n with phase := .whole, significand := digit c }
    else none
  | .zero =>
    if c = '.' then some { n with phase := .point }
    else if mark then some { n with phase := .mark }
    else none
  | .whole =>
    if c.isDigit then some (n.wholeDigit c)
    else if c = '.' then some { n with phase := .point, full := false }
    else if mark then some { n with phase := .mark }
    else none
  | .point | .places =>
    if c.isDigit then some { n.place c with phase := .places }
    else if mark ∧ n.phase = .places then some { n with phase := .mark }
    else none
  | .mark =>
    if c = '+' then some { n with phase := .markSign }
    else if c = '-' then some { n with phase := .markSign, powerNegative := true }
    else if c.isDigit then some { n with phase := .power, power := digit c }
    else none
  | .markSign | .power =>
    if c.isDigit then some { n with phase := .power, power := 10 * n.power + digit c } else none

/-- Whether a number may end here. -/
def complete (n : Numeral) : Bool :=
  n.phase = .zero || n.phase = .whole || n.phase = .places || n.phase = .power

/-- Whether a number may end before `c`: no digit follows a leading zero. -/
def endsBefore (n : Numeral) (c : Char) : Bool := n.complete && !(n.phase = .zero && c.isDigit)

/-- The number read. -/
def draft (n : Numeral) : Draft :=
  let power : Int := n.shift + (if n.powerNegative then -(n.power : Int) else n.power)
  let whole := (n.phase = .zero || n.phase = .whole) && !n.full
  match Number.ofDecimal? ⟨n.negative, n.significand, power, whole⟩ with
  | some x => .scalar (.number x)
  | none => .flawed

end Numeral

/-! ## Strings -/

/-- Where a string stands after a backslash. -/
inductive Quote.Escape where
  | none
  | backslash
  /-- Inside the four digits of a code: bytes seen, value so far, and whether all were digits. -/
  | code (seen : Nat) (value : Nat) (proper : Bool)

/-- A string that is being read. The characters are held newest first; `high` is the first half of
a surrogate pair whose second half has to follow. -/
structure Quote where
  chars : List Char := []
  high : Option Nat := none
  escape : Quote.Escape := .none
  flawed : Bool := false

namespace Quote

/-- Adds a character that stands for itself. -/
def push (q : Quote) (c : Char) : Quote :=
  { chars := c :: q.chars, flawed := q.flawed || q.high.isSome }

/-- Adds a code of four digits: a character, or half of a surrogate pair. -/
def pushCode (q : Quote) (code : Nat) : Quote :=
  let low := 0xdc00 ≤ code ∧ code ≤ 0xdfff
  match q.high with
  | some h =>
    if low then
      let c := Char.ofNat (0x10000 + (h - 0xd800) * 0x400 + (code - 0xdc00))
      { q with chars := c :: q.chars, high := none, escape := .none }
    else { q with high := none, escape := .none, flawed := true }
  | none =>
    if low then { q with escape := .none, flawed := true }
    else if 0xd800 ≤ code ∧ code ≤ 0xdbff then { q with high := some code, escape := .none }
    else q.push (Char.ofNat code)

/-- The character that a backslash and `c` stand for. -/
def unescape? (c : Char) : Option Char :=
  match c with
  | '"' => some '"'
  | '\\' => some '\\'
  | '/' => some '/'
  | 'b' => some (Char.ofNat 8)
  | 'f' => some (Char.ofNat 12)
  | 'n' => some '\n'
  | 'r' => some '\r'
  | 't' => some '\t'
  | _ => none

/-- Reads one more character of a string, the closing quote apart. -/
def next? (q : Quote) (c : Char) : Option Quote :=
  match q.escape with
  | .none =>
    if c = '\\' then some { q with escape := .backslash }
    else if c.toNat < 32 then none
    else some (q.push c)
  | .backslash =>
    if c = 'u' then some { q with escape := .code 0 0 true }
    else (unescape? c).map q.push
  | .code seen value proper =>
    let seen := seen + c.utf8Size
    let digit := Text.digit? 16 c
    let value := 16 * value + digit.getD 0
    let proper := proper && digit.isSome
    if seen < 4 then some { q with escape := .code seen value proper }
    else if proper then some (q.pushCode value)
    else none

/-- Whether a quote would close the string here. -/
def closes (q : Quote) : Bool :=
  match q.escape with
  | .none => true
  | _ => false

/-- The text read; `none` if it denotes no text. -/
def text? (q : Quote) : Option String :=
  if q.flawed || q.high.isSome then none else some (String.ofList q.chars.reverse)

end Quote

/-! ## The automaton -/

/-- An array or object that is still open; its members are held newest first. -/
inductive Frame where
  | array (items : List Draft)
  | object (fields : List (Option String × Draft))
  /-- An object whose last key waits for its value. -/
  | field (fields : List (Option String × Draft)) (key : Option String)

/-- What may come next. -/
inductive Spot where
  /-- A value has to follow. -/
  | value
  /-- The first item of an array, or its end. -/
  | item
  /-- A comma, or the end of the innermost array or object. -/
  | more
  /-- The first key of an object, or its end. -/
  | field
  /-- A key has to follow. -/
  | key
  | colon
  /-- Inside a word for `v`: the next character, and those after it. -/
  | word (next : Char) (rest : List Char) (v : Value)
  | number (n : Numeral)
  | string (isKey : Bool) (q : Quote)
  /-- The value is complete, and only blanks may follow. -/
  | finished (d : Draft)

structure State where
  frames : List Frame
  spot : Spot

namespace Frame

/-- The draft of a frame with one more member, which is the last. -/
def around (f : Frame) (inner : Draft) : Draft :=
  match f with
  | .array items => .array (inner :: items).reverse none
  | .object fields => .object ((none, inner) :: fields).reverse
  | .field fields key => .object ((key, inner) :: fields).reverse

/-- The draft of a frame inside which the text breaks off. A key that denotes no text is a fault
that comes first, unless it is passed over. -/
def cut (f : Frame) (b : Breach) : Draft :=
  match f with
  | .field _ none => f.around (.broken { b with wanted := .malformed })
  | _ => f.around (.broken b)

/-- The draft of a frame that breaks off behind one of its members. -/
def cutAfter (f : Frame) (b : Breach) : Draft :=
  match f with
  | .array items => .array items.reverse (some b)
  | _ => f.cut b

end Frame

namespace State

def start : State := ⟨[], .value⟩

/-- The blanks that may stand between the parts of a text. -/
def isBlank (c : Char) : Bool := c = ' ' || c = '\n' || c = '\t' || c = '\r'

/-- The draft of a text that breaks off inside these frames. -/
def cutFrames (b : Breach) (spot : Spot) : List Frame → Draft
  | [] => .broken b
  | f :: outer =>
    let inner := match spot with
      | .more => f.cutAfter b
      | _ => f.cut b
    outer.foldl (fun inner g => g.around inner) inner

/-- The reading of a text that breaks off here. -/
def cut (s : State) (b : Breach) : Reading :=
  match s.spot with
  | .finished v => ⟨v, true⟩
  | _ => ⟨cutFrames b s.spot s.frames, false⟩

/-- The reading of a text that goes on here in a way that it must not. -/
def refuse (s : State) : Reading := s.cut (.plain .malformed)

/-- The state after a complete value. -/
def put (frames : List Frame) (d : Draft) : State :=
  match frames with
  | [] => ⟨[], .finished d⟩
  | .array items :: rest => ⟨.array (d :: items) :: rest, .more⟩
  | .object fields :: rest => ⟨.object ((none, d) :: fields) :: rest, .more⟩
  | .field fields key :: rest => ⟨.object ((key, d) :: fields) :: rest, .more⟩

/-- The first character of a value. -/
def begin? (frames : List Frame) (c : Char) : Option State :=
  match c with
  | '{' => some ⟨.object [] :: frames, .field⟩
  | '[' => some ⟨.array [] :: frames, .item⟩
  | '"' => some ⟨frames, .string false {}⟩
  | 'n' => some ⟨frames, .word 'u' ['l', 'l'] .null⟩
  | 't' => some ⟨frames, .word 'r' ['u', 'e'] (.bool true)⟩
  | 'f' => some ⟨frames, .word 'a' ['l', 's', 'e'] (.bool false)⟩
  | c => (Numeral.start? c).map fun n => ⟨frames, .number n⟩

/-- The end of the innermost array or object. -/
def close? (frames : List Frame) (c : Char) : Option State :=
  match frames, c with
  | .array items :: rest, ']' => some (put rest (.array items.reverse none))
  | .object fields :: rest, '}' => some (put rest (.object fields.reverse))
  | _, _ => none

/-- A comma after a member of the innermost array or object. -/
def comma? (frames : List Frame) : Option State :=
  match frames with
  | .array items :: rest => some ⟨.array items :: rest, .value⟩
  | .object fields :: rest => some ⟨.object fields :: rest, .key⟩
  | _ => none

/-- Between the parts of a text: reads a character that is no blank. -/
def part? (s : State) (c : Char) : Option State :=
  match s.spot with
  | .value => begin? s.frames c
  | .item => (close? s.frames c).or (begin? s.frames c)
  | .more => if c = ',' then comma? s.frames else close? s.frames c
  | .field => if c = '"' then some ⟨s.frames, .string true {}⟩ else close? s.frames c
  | .key => if c = '"' then some ⟨s.frames, .string true {}⟩ else none
  | .colon => if c = ':' then some ⟨s.frames, .value⟩ else none
  | _ => none

/-- Between the parts of a text: passes over blanks. -/
def between (s : State) (c : Char) : Except Reading State :=
  if isBlank c then .ok s
  else
    match s.part? c with
    | some t => .ok t
    | none => .error s.refuse

/-- The state after a string. -/
def closeString (frames : List Frame) (isKey : Bool) (q : Quote) : State :=
  if isKey then
    match frames with
    | .object fields :: rest => ⟨.field fields q.text? :: rest, .colon⟩
    | rest => ⟨rest, .colon⟩
  else put frames (q.text?.elim .flawed (fun s => .scalar (.string s)))

/-- Reads one character. -/
def step (s : State) (c : Char) : Except Reading State :=
  match s.spot with
  | .word next rest v =>
    if c = next then
      match rest with
      | [] => .ok (put s.frames (.scalar v))
      | d :: rest => .ok ⟨s.frames, .word d rest v⟩
    else .error s.refuse
  | .number n =>
    match n.next? c with
    | some n => .ok ⟨s.frames, .number n⟩
    | none =>
      if n.endsBefore c then (put s.frames n.draft).between c else .error s.refuse
  | .string isKey q =>
    if c = '"' ∧ q.closes then .ok (closeString s.frames isKey q)
    else
      match q.next? c with
      | some q => .ok ⟨s.frames, .string isKey q⟩
      | none => .error s.refuse
  | _ => s.between c

/-- The end of the text. A number that is not complete is unfinished only to a reader that wants it,
and half a surrogate pair in a string is a fault only to such a reader. -/
def stop (s : State) : Reading :=
  match s.spot with
  | .finished d => ⟨d, false⟩
  | .number n =>
    if n.complete then
      let t := put s.frames n.draft
      match t.spot with
      | .finished d => ⟨d, false⟩
      | _ => t.cut (.plain .unfinished)
    else s.cut ⟨.unfinished, .malformed⟩
  | .string _ q => s.cut ⟨if q.flawed then .malformed else .unfinished, .unfinished⟩
  | _ => s.cut (.plain .unfinished)

/-- Reads the rest of a text. -/
def run (s : State) : List Char → Reading
  | [] => s.stop
  | c :: cs =>
    match s.step c with
    | .ok t => t.run cs
    | .error r => r

end State

/-- Reads a text. -/
def read (text : List Char) : Reading := State.start.run text

/-- The value that a text denotes. -/
def parse (text : List Char) : Except Defect Value := (read text).value

end WorkflowEngine.Json
