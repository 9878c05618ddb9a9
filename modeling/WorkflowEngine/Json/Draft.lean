import WorkflowEngine.Value

/-!
# What a JSON text spells

A draft is a JSON text as far as it could be read: fields in the order they are written, repeated
keys included, and, where the text breaks off its grammar, the breach in the place where it stands.
A reader of a draft goes through it from left to right and so meets the first of several faults
first, whether it is a fault of the grammar or of the shape that the reader asks for.

**Flaws.** Some spellings follow the grammar and denote nothing: a number past the largest `Double`,
half a surrogate pair. They are faults only to a reader that wants the value; one that passes over
it (`Draft.breach?`) does not notice them, nor how deep the value is nested. The two kinds of reader
may also name a breach by different defects.

**Values** (`Draft.value`). Of two fields with one key the later stays. Arrays and objects may be
nested to a given depth.
-/

namespace WorkflowEngine.Json

/-- Why a text does not yield what was asked of it. -/
inductive Defect where
  /-- The text ends inside a value, or is blank. -/
  | unfinished
  /-- The text breaks the grammar in some other way, or denotes no value. -/
  | malformed
  /-- The text is well formed and of the wrong shape. -/
  | misshapen
deriving DecidableEq

/-- The name of a kind of defect. -/
def Defect.name : Defect → String
  | .unfinished => "eof"
  | .malformed => "syntax"
  | .misshapen => "data"

/-- A place where a text breaks off its grammar: what it is to a reader that wants the value there,
and to one that passes over it. -/
structure Breach where
  wanted : Defect
  passed : Defect
deriving DecidableEq

/-- A breach that is the same to all readers. -/
def Breach.plain (d : Defect) : Breach := ⟨d, d⟩

/-- A text as far as it could be read. A key is `none` if its spelling denotes no text. An array may
break off where a comma or its end should follow. -/
inductive Draft where
  | scalar (v : Value)
  | flawed
  | array (items : List Draft) (breach : Option Breach)
  | object (fields : List (Option String × Draft))
  | broken (breach : Breach)

namespace Draft

instance : Inhabited Draft := ⟨.flawed⟩

mutual

/-- Where the text breaks off, if it does. -/
def breach? : Draft → Option Breach
  | .scalar _ | .flawed => none
  | .array items breach => (itemsBreach? items).or breach
  | .object fields => fieldsBreach? fields
  | .broken b => some b

def itemsBreach? : List Draft → Option Breach
  | [] => none
  | d :: ds => (breach? d).or (itemsBreach? ds)

def fieldsBreach? : List (Option String × Draft) → Option Breach
  | [] => none
  | (_, d) :: ds => (breach? d).or (fieldsBreach? ds)

end

/-- The key of a field as a text. -/
def key : Option String → Draft → Except Defect String
  | some k, _ => .ok k
  | none, .broken b => .error b.wanted
  | none, _ => .error .malformed

/-- The end of an array that may have broken off. -/
def arrayEnd {α : Type} (breach : Option Breach) (a : α) : Except Defect α :=
  match breach with
  | none => .ok a
  | some b => .error b.wanted

mutual

/-- The value a draft denotes, with arrays and objects nested at most `depth` deep. -/
def value (depth : Nat) : Draft → Except Defect Value
  | .scalar v => .ok v
  | .flawed => .error .malformed
  | .broken b => .error b.wanted
  | .array items breach =>
    if depth = 0 then .error .malformed
    else do
      let vs ← itemValues (depth - 1) items
      arrayEnd breach (.array vs)
  | .object fields =>
    if depth = 0 then .error .malformed else .ofRecord <$> fieldRecord (depth - 1) .empty fields

def itemValues (depth : Nat) : List Draft → Except Defect (List Value)
  | [] => .ok []
  | d :: ds => do
    let v ← value depth d
    let vs ← itemValues depth ds
    return v :: vs

/-- Binds the fields, from left to right, on top of a record. -/
def fieldRecord (depth : Nat) (r : Record Value) :
    List (Option String × Draft) → Except Defect (Record Value)
  | [] => .ok r
  | (k, d) :: ds => do
    let name ← key k d
    let v ← value depth d
    fieldRecord depth (r.insert name v) ds

end

end Draft

/-- A text read to its end: what it spells, and whether something else follows. -/
structure Reading where
  draft : Draft
  trailing : Bool

/-- Arrays and objects may be nested this deep. -/
def maxDepth : Nat := 127

/-- Refuses a text with something after its value. -/
def Reading.finish (r : Reading) {α : Type} (a : α) : Except Defect α :=
  if r.trailing then .error .malformed else .ok a

/-- The value that a text denotes. -/
def Reading.value (r : Reading) : Except Defect Value := do
  let v ← r.draft.value maxDepth
  r.finish v

end WorkflowEngine.Json
